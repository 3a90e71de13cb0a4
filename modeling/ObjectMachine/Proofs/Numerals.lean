import ObjectMachine.Text.Numeral

/-!
# Numerals that are written and read

The digits of a number denote it, in every base up to sixteen. So a word that is written in decimal
or in hexadecimal is read back, with or without a sign, over the whole range of its type.
-/

namespace ObjectMachine
namespace Text

/-!
## Digits
-/

theorem digitValue?_digitChar {d : Nat} (small : d < 16) :
    digitValue? (Nat.digitChar d) = some d := by
  have all : ∀ d < 16, digitValue? (Nat.digitChar d) = some d := by decide
  exact all d small

theorem readDigits?_append (base acc : Nat) (front back : List Char) :
    readDigits? base acc (front ++ back) =
      (readDigits? base acc front).bind fun acc => readDigits? base acc back := by
  induction front generalizing acc with
  | nil => rfl
  | cons c rest ih =>
      rw [List.cons_append, readDigits?, readDigits?]
      cases digitValue? c with
      | none => rfl
      | some d =>
          by_cases inside : d < base
          · simp only [if_pos inside, ih]
          · simp only [if_neg inside, Option.bind_none]

theorem readDigits?_digitChar {base acc d : Nat} (small : base ≤ 16) (inside : d < base) :
    readDigits? base acc [Nat.digitChar d] = some (acc * base + d) := by
  simp only [readDigits?, digitValue?_digitChar (Nat.lt_of_lt_of_le inside small), if_pos inside]

theorem readDigits?_toDigits {base : Nat} (large : 1 < base) (small : base ≤ 16) (n : Nat) :
    readDigits? base 0 (Nat.toDigits base n) = some n := by
  induction n using Nat.strongRecOn with
  | ind n ih =>
      by_cases last : n < base
      · rw [Nat.toDigits_of_lt_base last, readDigits?_digitChar small last, Nat.zero_mul,
          Nat.zero_add]
      · -- All digits but the last are those of a smaller number.
        have more : base ≤ n := Nat.le_of_not_lt last
        have smaller : n / base < n := Nat.div_lt_self (by omega) large
        rw [Nat.toDigits_of_base_le large more, readDigits?_append, ih _ smaller,
          Option.bind_some, readDigits?_digitChar small (Nat.mod_lt _ (by omega)),
          Nat.div_add_mod']

theorem readNat?_toDigits {base : Nat} (large : 1 < base) (small : base ≤ 16) (n : Nat) :
    readNat? base (Nat.toDigits base n) = some n := by
  have read := readDigits?_toDigits large small n
  cases digits : Nat.toDigits base n with
  | nil => exact absurd digits Nat.toDigits_ne_nil
  | cons c rest =>
      rw [digits] at read
      exact read

theorem exists_digitValue?_of_readDigits? {base acc n : Nat} {cs : List Char}
    (read : readDigits? base acc cs = some n) : ∀ c ∈ cs, ∃ d, digitValue? c = some d := by
  induction cs generalizing acc with
  | nil => exact nofun
  | cons c rest ih =>
      intro c' mem
      rw [readDigits?] at read
      split at read
      · next d value =>
          rcases List.mem_cons.mp mem with rfl | mem
          · exact ⟨d, value⟩
          · split at read
            · exact ih read c' mem
            · cases read
      · cases read

theorem ne_of_mem_toDigits {base n : Nat} (large : 1 < base) (small : base ≤ 16) {c other : Char}
    (mem : c ∈ Nat.toDigits base n) (noDigit : digitValue? other = none) : c ≠ other := by
  rcases exists_digitValue?_of_readDigits? (readDigits?_toDigits large small n) c mem with
    ⟨d, value⟩
  intro same
  rw [same, noDigit] at value
  cases value

theorem readNat?_decimal (n : Nat) : readNat? 10 (decimal n) = some n :=
  readNat?_toDigits (by decide) (by decide) n

theorem isDigit_of_mem_decimal {n : Nat} {c : Char} (mem : c ∈ decimal n) : c.isDigit = true :=
  Nat.isDigit_of_mem_toDigits (by decide) (by decide) mem

theorem decimal_ne_nil (n : Nat) : decimal n ≠ [] :=
  Nat.toDigits_ne_nil

/-!
## Words
-/

theorem readUInt32?_toDigits {base : Nat} (large : 1 < base) (small : base ≤ 16) (word : UInt32) :
    readUInt32? base (Nat.toDigits base word.toNat) = some word := by
  have fits : word.toNat < UInt32.size := word.toNat_lt_size
  have read := readNat?_toDigits large small word.toNat
  unfold readUInt32?
  split
  · next rest digits =>
      have mem : '+' ∈ Nat.toDigits base word.toNat := digits ▸ List.mem_cons_self
      exact absurd rfl (ne_of_mem_toDigits large small mem (by decide))
  · simp only [read, if_pos fits, UInt32.ofNat_toNat]

theorem fits_toInt (value : Int32) :
    Int32.minValue.toInt ≤ value.toInt ∧ value.toInt ≤ Int32.maxValue.toInt :=
  ⟨value.minValue_le_toInt, value.toInt_le⟩

theorem readInt32?_minus {digits : List Char} {n : Nat} {value : Int32}
    (read : readNat? 10 digits = some n) (same : value.toInt = -n) :
    readInt32? ('-' :: digits) = some value := by
  simp only [readInt32?, read, Option.bind_eq_bind, Option.bind_some, Option.pure_def,
    Option.map_some, ← same, if_pos (fits_toInt value), Int32.ofInt_toInt]

theorem readInt32?_plus {digits : List Char} {n : Nat} {value : Int32}
    (read : readNat? 10 digits = some n) (same : value.toInt = n) :
    readInt32? ('+' :: digits) = some value := by
  simp only [readInt32?, read, Option.bind_eq_bind, Option.bind_some, Option.pure_def,
    Option.map_some, ← same, if_pos (fits_toInt value), Int32.ofInt_toInt]

theorem readInt32?_decimal {n : Nat} {value : Int32} (same : value.toInt = n) :
    readInt32? (decimal n) = some value := by
  have unsigned : ∀ sign rest, digitValue? sign = none → decimal n ≠ sign :: rest := by
    intro sign rest noDigit digits
    have mem : sign ∈ decimal n := digits ▸ List.mem_cons_self
    exact ne_of_mem_toDigits (by decide) (by decide) mem noDigit rfl
  unfold readInt32?
  split
  · next digits => exact absurd digits (unsigned _ _ (by decide))
  · next digits => exact absurd digits (unsigned _ _ (by decide))
  · simp only [readNat?_decimal, Option.bind_eq_bind, Option.bind_some, Option.pure_def,
      Option.map_some, ← same, if_pos (fits_toInt value), Int32.ofInt_toInt]

theorem readInt32?_signedDecimal (value : Int32) :
    readInt32? (signedDecimal value.toInt) = some value := by
  unfold signedDecimal
  split
  · next negative => exact readInt32?_minus (readNat?_decimal _) (by omega)
  · next positive => exact readInt32?_decimal (by omega)

theorem readInt32?_offsetDecimal (value : Int32) :
    readInt32? (offsetDecimal value.toInt) = some value := by
  unfold offsetDecimal
  split
  · next negative => exact readInt32?_minus (readNat?_decimal _) (by omega)
  · next positive => exact readInt32?_plus (readNat?_decimal _) (by omega)

end Text
end ObjectMachine
