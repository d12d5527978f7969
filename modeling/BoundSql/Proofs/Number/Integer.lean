import Mathlib.Data.List.Basic
import BoundSql.Number.Integer
import BoundSql.Proofs.Text.Reader

/-! Decimal integers as they are written: a sign, if there is one, and at least one digit. Reading
accepts these and no others, as long as the number has the wanted size. -/

namespace BoundSql

/-- The sign before a number. -/
inductive Sign where
  | none
  | plus
  | minus
  deriving DecidableEq

namespace Sign

def text : Sign → List Char
  | none => []
  | plus => ['+']
  | minus => ['-']

def negative : Sign → Bool
  | minus => true
  | _ => false

def apply (sign : Sign) (n : Nat) : Int := if sign.negative then -n else n

end Sign

/-- At least one digit and nothing else. -/
def IsDigits (s : List Char) : Prop := s ≠ [] ∧ ∀ c ∈ s, c.isDigit = true

/-- The number that digits denote. -/
abbrev digitsValue (s : List Char) : Nat := Nat.ofDigitChars 10 s 0

/-- Whether a text is a whole number: one sign or none, and digits. -/
def IsInteger (s : List Char) (n : Int) : Prop :=
  ∃ (sign : Sign) (digits : List Char), s = sign.text ++ digits ∧ IsDigits digits ∧
    n = sign.apply (digitsValue digits)

/-- Whether a text does not begin with a sign. -/
def Signless (s : List Char) : Prop := ∀ c ∈ s.head?, c ≠ '+' ∧ c ≠ '-'

theorem IsDigits.signless {s : List Char} (h : IsDigits s) : Signless s := by
  intro c hc
  have hdigit : c.isDigit = true := h.2 c (List.mem_of_mem_head? hc)
  constructor <;> rintro rfl <;> exact absurd hdigit (by decide)

namespace Integer

theorem digit?_eq_some_iff {c : Char} {d : Nat} :
    digit? c = some d ↔ c.isDigit = true ∧ c.toNat - '0'.toNat = d := by
  rw [digit?]
  split <;> simp_all

theorem digit?_eq_none_iff {c : Char} : digit? c = none ↔ c.isDigit = false := by
  rw [digit?]
  split <;> simp_all

theorem le_ofDigitChars (s : List Char) (n : Nat) : n ≤ Nat.ofDigitChars 10 s n := by
  rw [Nat.ofDigitChars_eq_ofDigitChars_zero]
  exact Nat.le_add_right_of_le (Nat.le_mul_of_pos_left n (Nat.pow_pos (by decide : 0 < 10)))

/-- The limit holds at every step if it holds at the end, since digits only enlarge a number. -/
theorem readDigits_eq_ok_iff {limit : Nat} {beyond : IntegerError} {s : List Char} {n k : Nat}
    (hn : n ≤ limit) : readDigits limit beyond n s = .ok k ↔
      (∀ c ∈ s, c.isDigit = true) ∧ Nat.ofDigitChars 10 s n = k ∧ k ≤ limit := by
  induction s generalizing n with
  | nil =>
    simp only [readDigits, Except.ok.injEq, Nat.ofDigitChars_nil, List.not_mem_nil, false_imp_iff,
      implies_true, true_and]
    exact ⟨fun h => ⟨h, h ▸ hn⟩, And.left⟩
  | cons c s ih =>
    rw [readDigits, Nat.ofDigitChars_cons, List.forall_mem_cons]
    cases hd : digit? c with
    | none => simp [digit?_eq_none_iff.1 hd]
    | some d =>
      obtain ⟨hc, rfl⟩ := digit?_eq_some_iff.1 hd
      by_cases hle : 10 * n + (c.toNat - '0'.toNat) ≤ limit
      · simp only [if_pos hle, ih hle, hc, true_and]
      · simp only [if_neg hle, hc, true_and, reduceCtorEq, false_iff, not_and]
        rintro - rfl hk
        exact hle (Nat.le_trans (le_ofDigitChars _ _) hk)

theorem readNat_eq_ok_iff {limit : Nat} {beyond : IntegerError} {s : List Char} {k : Nat} :
    readNat limit beyond s = .ok k ↔ IsDigits s ∧ digitsValue s = k ∧ k ≤ limit := by
  cases s with
  | nil => simp [readNat, IsDigits]
  | cons c s => simp [readNat, IsDigits, readDigits_eq_ok_iff (Nat.zero_le limit)]

theorem map_readNat_eq_ok_iff {limit : Nat} {beyond : IntegerError} {s : List Char} {f : Nat → Int}
    {n : Int} : (readNat limit beyond s).map f = .ok n ↔
      IsDigits s ∧ f (digitsValue s) = n ∧ digitsValue s ≤ limit := by
  cases h : readNat limit beyond s with
  | error e =>
    simp only [Except.map, reduceCtorEq, false_iff, not_and]
    rintro hs - hle
    rw [readNat_eq_ok_iff.2 ⟨hs, rfl, hle⟩] at h
    cases h
  | ok k =>
    obtain ⟨hs, rfl, hle⟩ := readNat_eq_ok_iff.1 h
    simp only [Except.map, Except.ok.injEq, hs, hle, true_and, and_true]

/-- The texts that are read are the integers within the limits. -/
theorem readSigned_eq_ok_iff {limit : Nat} {s : List Char} {n : Int} :
    readSigned limit s = .ok n ↔ IsInteger s n ∧ -(limit + 1 : Int) ≤ n ∧ n ≤ limit := by
  constructor
  · intro h
    unfold readSigned at h
    split at h
    · cases h
    · obtain ⟨hdigits, rfl, hle⟩ := map_readNat_eq_ok_iff.1 h
      exact ⟨⟨.plus, _, rfl, hdigits, rfl⟩, by rw [Int.ofNat_eq_natCast]; omega⟩
    · obtain ⟨hdigits, rfl, hle⟩ := map_readNat_eq_ok_iff.1 h
      exact ⟨⟨.minus, _, rfl, hdigits, rfl⟩, by rw [Int.ofNat_eq_natCast]; omega⟩
    · obtain ⟨hdigits, rfl, hle⟩ := map_readNat_eq_ok_iff.1 h
      exact ⟨⟨.none, _, rfl, hdigits, rfl⟩, by rw [Int.ofNat_eq_natCast]; omega⟩
  · rintro ⟨⟨sign, digits, rfl, hdigits, rfl⟩, hlow, hhigh⟩
    cases sign with
    | plus => exact map_readNat_eq_ok_iff.2 ⟨hdigits, rfl, Int.ofNat_le.1 hhigh⟩
    | minus =>
      have hle : digitsValue digits ≤ limit + 1 := by
        simp only [Sign.apply, Sign.negative, if_true] at hlow
        omega
      exact map_readNat_eq_ok_iff.2 ⟨hdigits, rfl, hle⟩
    | none =>
      have hread : readSigned limit digits = (readNat limit .tooLarge digits).map Int.ofNat := by
        -- digits are not empty and begin with no sign, which leaves the last case
        have hhead := hdigits.signless
        unfold readSigned
        split
        · exact absurd rfl hdigits.1
        · exact absurd rfl (hhead _ rfl).1
        · exact absurd rfl (hhead _ rfl).2
        · rfl
      exact hread.trans (map_readNat_eq_ok_iff.2 ⟨hdigits, rfl, Int.ofNat_le.1 hhigh⟩)

end Integer

/-- A text is read as an integer of 64 bits if it is a whole number of that size. -/
theorem readInt64_eq_ok_iff {s : String} {n : Int64} :
    readInt64 s = .ok n ↔ IsInteger s.toList n.toInt := by
  have hlimit : ((Nat.pow 2 63 - 1 : Nat) : Int) = 2 ^ 63 - 1 := rfl
  rw [readInt64]
  constructor
  · intro h
    cases hk : Integer.readSigned (Nat.pow 2 63 - 1) s.toList with
    | error e =>
      rw [hk] at h
      cases h
    | ok k =>
      rw [hk] at h
      obtain ⟨hinteger, hlow, hhigh⟩ := Integer.readSigned_eq_ok_iff.1 hk
      rw [hlimit] at hlow hhigh
      cases h
      rwa [Int64.toInt_ofInt_of_le (by omega) (by omega)]
  · intro h
    have hlow := n.le_toInt
    have hhigh := n.toInt_lt
    rw [Integer.readSigned_eq_ok_iff.2 ⟨h, by omega, by omega⟩, Except.map, Int64.ofInt_toInt]

/-- The decimal text of an integer is read as it. -/
theorem isInteger_toString (n : Int) : IsInteger (toString n).toList n := by
  have hdigits (m : Nat) : IsDigits (Nat.toDigits 10 m) :=
    ⟨Nat.toDigits_ne_nil, Reader.isDigit_of_mem_toDigits⟩
  cases n with
  | ofNat m =>
    refine ⟨.none, Nat.toDigits 10 m, ?_, hdigits m, ?_⟩
    · exact Nat.toList_repr
    · rw [digitsValue, Nat.ofDigitChars_ten_toDigits]
      rfl
  | negSucc m =>
    refine ⟨.minus, Nat.toDigits 10 (m + 1), ?_, hdigits (m + 1), ?_⟩
    · rw [Int.toString_eq_repr, Int.repr, String.toList_append, Nat.succ_eq_add_one, Nat.toList_repr]
      rfl
    · rw [digitsValue, Nat.ofDigitChars_ten_toDigits]
      rfl

end BoundSql
