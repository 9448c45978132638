import Mathlib.Data.Nat.Digits.Lemmas

/-!
# Decimal text

Writing a natural number in decimal and reading an integer back, over bytes. The writer
gives the shortest text: every text that reads as a number is at least as long as the one
written for it.
-/

namespace HybridOs.DecimalText

/-- The byte of the digit 0. -/
def zeroByte : UInt8 := 48

/-- The byte of a decimal digit. -/
def digitByte (d : ℕ) : UInt8 := UInt8.ofNat (48 + d)

/-- The digit a byte stands for. -/
def digitOf (c : UInt8) : Option ℕ :=
  if 48 ≤ c.toNat ∧ c.toNat ≤ 57 then some (c.toNat - 48) else none

/-- The decimal text of a natural number. -/
def itoa (n : ℕ) : List UInt8 :=
  if n = 0 then [zeroByte] else ((Nat.digits 10 n).map digitByte).reverse

/-- The digits of a text, the most significant first. -/
def digitsOf (text : List UInt8) : Option (List ℕ) := text.mapM digitOf

/-- The number of a nonempty text of digits. -/
def parseDigits (text : List UInt8) : Option ℕ :=
  if text = [] then none else (digitsOf text).map fun ds => Nat.ofDigits 10 ds.reverse

/-- The bytes of the two signs. -/
def plusByte : UInt8 := 43

@[inherit_doc plusByte]
def minusByte : UInt8 := 45

/-- A text without its sign. -/
def unsigned (text : List UInt8) : List UInt8 :=
  if text.head? = some plusByte ∨ text.head? = some minusByte then text.tail else text

/-- The integer of a text: an optional sign and digits, within 64 bits. -/
def atoi (text : List UInt8) : Option ℤ :=
  let signed (n : ℕ) : ℤ := if text.head? = some minusByte then -n else n
  ((parseDigits (unsigned text)).map signed).filter fun v => -2 ^ 63 ≤ v ∧ v < 2 ^ 63

theorem digitOf_digitByte {d : ℕ} (h : d < 10) : digitOf (digitByte d) = some d := by
  have hn : (digitByte d).toNat = 48 + d := by
    rw [digitByte, UInt8.toNat_ofNat']
    omega
  rw [digitOf, hn, if_pos (by omega)]
  congr 1
  omega

variable {ds : List ℕ} {n : ℕ}

theorem digitsOf_digitBytes (h : ∀ d ∈ ds, d < 10) : digitsOf (ds.map digitByte) = some ds := by
  induction ds with
  | nil => rfl
  | cons d ds ih =>
    have hd := digitOf_digitByte (h d List.mem_cons_self)
    have hrest := ih fun x hx => h x (List.mem_cons_of_mem d hx)
    simp only [digitsOf, List.map_cons, List.mapM_cons, hd] at hrest ⊢
    rw [hrest]
    rfl

theorem digitsOf_length {text : List UInt8} (h : digitsOf text = some ds) :
    ds.length = text.length := by
  induction text generalizing ds with
  | nil => simp_all [digitsOf]
  | cons c text ih =>
    simp only [digitsOf, List.mapM_cons, Option.pure_def, Option.bind_eq_bind,
      Option.bind_eq_some_iff, Option.some.injEq] at h ih
    obtain ⟨d, -, rest, hrest, rfl⟩ := h
    simp only [List.length_cons, ih hrest]

theorem digitsOf_lt {text : List UInt8} (h : digitsOf text = some ds) : ∀ d ∈ ds, d < 10 := by
  induction text generalizing ds with
  | nil => simp_all [digitsOf]
  | cons c text ih =>
    simp only [digitsOf, List.mapM_cons, Option.pure_def, Option.bind_eq_bind,
      Option.bind_eq_some_iff, Option.some.injEq] at h ih
    obtain ⟨d, hd, rest, hrest, rfl⟩ := h
    intro x hx
    rcases List.mem_cons.mp hx with rfl | hx
    · rw [digitOf] at hd
      split_ifs at hd with hc
      have := Option.some.inj hd
      omega
    · exact ih hrest x hx

theorem itoa_ne_nil (n : ℕ) : itoa n ≠ [] := by
  rw [itoa]
  split_ifs with h
  · simp
  · rw [ne_eq, List.reverse_eq_nil_iff, List.map_eq_nil_iff, Nat.digits_eq_nil_iff_eq_zero]
    exact h

/-- Every byte written is a digit. -/
theorem mem_itoa {c : UInt8} (h : c ∈ itoa n) : 48 ≤ c.toNat ∧ c.toNat ≤ 57 := by
  rw [itoa] at h
  split_ifs at h with hn
  · rw [List.mem_singleton.mp h]
    decide
  · rw [List.mem_reverse, List.mem_map] at h
    obtain ⟨d, hd, rfl⟩ := h
    have hlt := Nat.digits_lt_base (by norm_num) hd
    rw [digitByte, UInt8.toNat_ofNat']
    omega

/-- A number below a power of ten has at most that many digits. -/
theorem itoa_length_le {k : ℕ} (hk : 0 < k) (h : n < 10 ^ k) : (itoa n).length ≤ k := by
  rw [itoa]
  split_ifs with hn
  · rw [List.length_singleton]
    exact hk
  · rw [List.length_reverse, List.length_map]
    exact (Nat.digits_length_le_iff (by norm_num) n).mpr h

theorem parseDigits_itoa (n : ℕ) : parseDigits (itoa n) = some n := by
  rw [parseDigits, if_neg (itoa_ne_nil n), itoa]
  split_ifs with hn
  · subst hn
    rfl
  · rw [← List.map_reverse, digitsOf_digitBytes, Option.map_some, List.reverse_reverse,
      Nat.ofDigits_digits]
    intro d hd
    exact Nat.digits_lt_base (by norm_num) (List.mem_reverse.mp hd)

/-- A text that reads as a number is at least as long as the number's own. -/
theorem itoa_length_le_of_parseDigits {text : List UInt8} (h : parseDigits text = some n) :
    (itoa n).length ≤ text.length := by
  rw [parseDigits] at h
  split_ifs at h with hne
  rw [Option.map_eq_some_iff] at h
  obtain ⟨ds, hds, rfl⟩ := h
  apply itoa_length_le (List.length_pos_of_ne_nil hne)
  have hlt : Nat.ofDigits 10 ds.reverse < 10 ^ ds.reverse.length :=
    Nat.ofDigits_lt_base_pow_length (by norm_num)
      fun x hx => digitsOf_lt hds x (List.mem_reverse.mp hx)
  rwa [List.length_reverse, digitsOf_length hds] at hlt

/-- A text written for a number has no sign. -/
theorem head?_itoa (n : ℕ) : (itoa n).head? ≠ some plusByte ∧ (itoa n).head? ≠ some minusByte := by
  have hdigit : ∀ c, (itoa n).head? = some c → 48 ≤ c.toNat :=
    fun c hc => (mem_itoa (List.mem_of_mem_head? hc)).1
  constructor <;> intro h <;> exact absurd (hdigit _ h) (by decide)

/-- What is written for a 64-bit length is read back. -/
theorem atoi_itoa (h : n < 2 ^ 63) : atoi (itoa n) = some (n : ℤ) := by
  have hsign := head?_itoa n
  rw [atoi, unsigned, if_neg (not_or.mpr hsign), parseDigits_itoa, Option.map_some,
    if_neg hsign.2, Option.filter_some, if_pos]
  simp only [decide_eq_true_eq]
  omega

theorem unsigned_length_le (text : List UInt8) : (unsigned text).length ≤ text.length := by
  rw [unsigned]
  split_ifs
  · rw [List.length_tail]
    omega
  · exact le_refl _

/-- A text that reads as a count is at least as long as the count's own. -/
theorem itoa_length_le_of_atoi {text : List UInt8} (h : atoi text = some (n : ℤ)) :
    (itoa n).length ≤ text.length := by
  rw [atoi, Option.filter_eq_some_iff, Option.map_eq_some_iff] at h
  obtain ⟨⟨m, hm, hmn⟩, -⟩ := h
  have hmn' : m = n := by
    split_ifs at hmn <;> omega
  rw [hmn'] at hm
  exact (itoa_length_le_of_parseDigits hm).trans (unsigned_length_le text)

end HybridOs.DecimalText
