import Mathlib

/-!
# Packed registers

A packed register is split into ranges of bits, each of which is shifted down and masked. The
mask of a range is made from the square of its number of bits and not from a power of two, so
it is the right one for two and for four bits only.
-/

namespace HybridOs.GcomPacked

/-- The fields of a point in the configuration file, where they are there. -/
structure JsonIoPoint where
  size : Option ℕ
  starting_bit_pos : Option ℕ
  number_of_bits : Option ℕ

/-- `io_point_struct`, as far as the ranges of a packed register read it. -/
structure IoPoint where
  size : ℕ
  starting_bit_pos : ℕ
  number_of_bits : ℕ
  bit_mask : ℕ

/-- `extract_io_point`, for a new point. What is not configured is taken from the packed
register that the point is a range of. -/
def extract_io_point (json_io_point : JsonIoPoint) (packed_io_point : Option IoPoint) : IoPoint :=
  let size := json_io_point.size.getD ((packed_io_point.map (·.size)).getD 1)
  let starting_bit_pos := json_io_point.starting_bit_pos.getD
    ((packed_io_point.map (·.starting_bit_pos)).getD 0)
  let number_of_bits := json_io_point.number_of_bits.getD
    ((packed_io_point.map (·.number_of_bits)).getD (size * 16))
  { size := size
    starting_bit_pos := starting_bit_pos
    number_of_bits := number_of_bits
    bit_mask := number_of_bits * number_of_bits - 1 }

/-- The `bit_ranges` that `extract_io_point_map` gives a packed register. -/
def bit_ranges (packed_io_point : IoPoint) (json_bit_ranges : List JsonIoPoint) : List IoPoint :=
  json_bit_ranges.map fun json_io_point => extract_io_point json_io_point (some packed_io_point)

/-- `decode_packed`: the values that are handed to the ranges. -/
def decode_packed (bit_ranges : List IoPoint) (val : ℕ) : List ℕ :=
  bit_ranges.map fun bitem => (val >>> bitem.starting_bit_pos) &&& bitem.bit_mask

/-! ## What the ranges should be handed -/

/-- The number in the bits of a range. -/
def IoPoint.bits (bitem : IoPoint) (val : ℕ) : ℕ :=
  val / 2 ^ bitem.starting_bit_pos % 2 ^ bitem.number_of_bits

/-- The range lies in the register. -/
def IoPoint.Within (size : ℕ) (bitem : IoPoint) : Prop :=
  1 ≤ bitem.number_of_bits ∧ bitem.starting_bit_pos + bitem.number_of_bits ≤ size * 16

/-- Each range begins where the one before it ends, up to the end of the register. -/
def Tiles (size : ℕ) : ℕ → List IoPoint → Prop
  | pos, [] => pos = size * 16
  | pos, bitem :: rest =>
    bitem.starting_bit_pos = pos ∧ Tiles size (pos + bitem.number_of_bits) rest

/-- The register that is put together again from the values of its ranges. -/
def reconstructed (bit_ranges : List IoPoint) (values : List ℕ) : ℕ :=
  (List.zipWith (fun bitem value => value * 2 ^ bitem.starting_bit_pos) bit_ranges values).sum

/-- Each range is handed its bits, and ranges that tile the register give it back. -/
def Hands (size : ℕ) (bit_ranges : List IoPoint) (val : ℕ) : Prop :=
  decode_packed bit_ranges val = bit_ranges.map (·.bits val) ∧
    (Tiles size 0 bit_ranges → reconstructed bit_ranges (decode_packed bit_ranges val) = val)

/-- The bits in which the mask of a range differs from the one of its bits. -/
def strayBits (number_of_bits : ℕ) : ℕ :=
  (number_of_bits * number_of_bits - 1) ^^^ (2 ^ number_of_bits - 1)

/-! ## Masks -/

theorem and_eq_and_iff (val mask other : ℕ) :
    val &&& mask = val &&& other ↔ val &&& (mask ^^^ other) = 0 := by
  rw [Nat.and_xor_distrib_left, Nat.xor_eq_zero_iff]

variable {n size val : ℕ} {bitem : IoPoint}

theorem sq_lt_two_pow (hn : 5 ≤ n) : n * n < 2 ^ n := by
  induction n, hn using Nat.le_induction with
  | base => norm_num
  | succ n hn ih =>
    have hsquare : (n + 1) * (n + 1) ≤ n * n * 2 := by nlinarith
    rw [pow_succ]
    omega

/-- The mask keeps all bits of a range of two or four bits only. -/
theorem mask_keeps_iff (hn : 1 ≤ n) : (2 ^ n - 1) &&& (n * n - 1) = 2 ^ n - 1 ↔ n = 2 ∨ n = 4 := by
  constructor
  · intro hkeeps
    have hpos : 1 ≤ n * n := Nat.mul_pos hn hn
    have hle : 2 ^ n - 1 ≤ n * n - 1 := by
      rw [← hkeeps]
      exact Nat.and_le_right
    have hsmall : n < 5 := by
      by_contra hlarge
      have hlt := sq_lt_two_pow (not_lt.1 hlarge)
      omega
    interval_cases n
    · simp at hle
    · simp
    · simp at hkeeps
    · simp
  · rintro (rfl | rfl)
    · rfl
    · rfl

theorem strayBits_eq_zero (hn : n = 2 ∨ n = 4) : strayBits n = 0 := by
  rcases hn with rfl | rfl
  · rfl
  · rfl

/-! ## One range -/

theorem IoPoint.bits_eq_and (bitem : IoPoint) (val : ℕ) :
    bitem.bits val = val / 2 ^ bitem.starting_bit_pos &&& (2 ^ bitem.number_of_bits - 1) := by
  rw [IoPoint.bits, Nat.and_two_pow_sub_one_eq_mod]

theorem handed_iff (hmask : bitem.bit_mask = bitem.number_of_bits * bitem.number_of_bits - 1)
    (val : ℕ) :
    (val >>> bitem.starting_bit_pos) &&& bitem.bit_mask = bitem.bits val ↔
      val / 2 ^ bitem.starting_bit_pos &&& strayBits bitem.number_of_bits = 0 := by
  rw [IoPoint.bits_eq_and, Nat.shiftRight_eq_div_pow, hmask, and_eq_and_iff, strayBits]

/-- The register with just the bits of a range. -/
def IoPoint.allBits (bitem : IoPoint) : ℕ :=
  (2 ^ bitem.number_of_bits - 1) * 2 ^ bitem.starting_bit_pos

theorem IoPoint.allBits_lt (hwithin : bitem.Within size) : bitem.allBits < 2 ^ (size * 16) := by
  have hpos : 0 < 2 ^ bitem.number_of_bits := Nat.two_pow_pos _
  have hstart : 0 < 2 ^ bitem.starting_bit_pos := Nat.two_pow_pos _
  calc bitem.allBits
      < 2 ^ bitem.number_of_bits * 2 ^ bitem.starting_bit_pos :=
        Nat.mul_lt_mul_of_pos_right (by omega) hstart
    _ = 2 ^ (bitem.starting_bit_pos + bitem.number_of_bits) := by
        rw [← pow_add, Nat.add_comm]
    _ ≤ 2 ^ (size * 16) := Nat.pow_le_pow_right (by norm_num) hwithin.2

theorem IoPoint.allBits_div (bitem : IoPoint) :
    bitem.allBits / 2 ^ bitem.starting_bit_pos = 2 ^ bitem.number_of_bits - 1 := by
  rw [IoPoint.allBits]
  exact Nat.mul_div_cancel _ (Nat.two_pow_pos _)

/-- A range of which all bits are set is handed them only where it has two or four bits. -/
theorem two_or_four_of_allBits (hwithin : bitem.Within size)
    (hstray : bitem.allBits / 2 ^ bitem.starting_bit_pos &&& strayBits bitem.number_of_bits = 0) :
    bitem.number_of_bits = 2 ∨ bitem.number_of_bits = 4 := by
  rw [bitem.allBits_div, strayBits, ← and_eq_and_iff, Nat.and_self] at hstray
  exact (mask_keeps_iff hwithin.1).1 hstray

/-! ## All ranges -/

theorem bit_mask_of_mem {packed_io_point : IoPoint} {json_bit_ranges : List JsonIoPoint}
    (hmem : bitem ∈ bit_ranges packed_io_point json_bit_ranges) :
    bitem.bit_mask = bitem.number_of_bits * bitem.number_of_bits - 1 := by
  rw [bit_ranges, List.mem_map] at hmem
  rcases hmem with ⟨json_io_point, -, rfl⟩
  rfl

/-- The bits of ranges that tile the register from a position on. -/
theorem reconstructed_bits (hval : val < 2 ^ (size * 16)) (bit_ranges : List IoPoint) :
    ∀ pos, Tiles size pos bit_ranges →
      reconstructed bit_ranges (bit_ranges.map (·.bits val)) = val / 2 ^ pos * 2 ^ pos := by
  induction bit_ranges with
  | nil =>
    intro pos htiles
    rw [Tiles] at htiles
    rw [htiles, Nat.div_eq_of_lt hval]
    simp [reconstructed]
  | cons bitem rest ih =>
    intro pos htiles
    rw [Tiles] at htiles
    have hrest := ih _ htiles.2
    rw [reconstructed] at hrest ⊢
    rw [List.map_cons, List.zipWith_cons_cons, List.sum_cons, hrest, IoPoint.bits, htiles.1]
    have hdiv : val / 2 ^ (pos + bitem.number_of_bits) =
        val / 2 ^ pos / 2 ^ bitem.number_of_bits := by
      rw [pow_add, Nat.div_div_eq_div_mul]
    have hmod := Nat.mod_add_div (val / 2 ^ pos) (2 ^ bitem.number_of_bits)
    calc val / 2 ^ pos % 2 ^ bitem.number_of_bits * 2 ^ pos +
          val / 2 ^ (pos + bitem.number_of_bits) * 2 ^ (pos + bitem.number_of_bits)
        = (val / 2 ^ pos % 2 ^ bitem.number_of_bits +
            2 ^ bitem.number_of_bits * (val / 2 ^ pos / 2 ^ bitem.number_of_bits)) * 2 ^ pos := by
          rw [hdiv, pow_add]
          ring
      _ = val / 2 ^ pos * 2 ^ pos := by rw [hmod]

/-- The ranges are handed their bits, and then give the register back. -/
theorem hands_iff_decode (hval : val < 2 ^ (size * 16)) (bit_ranges : List IoPoint) :
    Hands size bit_ranges val ↔ decode_packed bit_ranges val = bit_ranges.map (·.bits val) := by
  constructor
  · exact fun hands => hands.1
  · intro hdecode
    refine ⟨hdecode, fun htiles => ?_⟩
    rw [hdecode, reconstructed_bits hval bit_ranges 0 htiles]
    simp

theorem hands_iff (hval : val < 2 ^ (size * 16)) (packed_io_point : IoPoint)
    (json_bit_ranges : List JsonIoPoint) :
    Hands size (bit_ranges packed_io_point json_bit_ranges) val ↔
      ∀ bitem ∈ bit_ranges packed_io_point json_bit_ranges,
        val / 2 ^ bitem.starting_bit_pos &&& strayBits bitem.number_of_bits = 0 := by
  rw [hands_iff_decode hval, decode_packed, List.map_inj_left]
  constructor
  · intro hhanded bitem hmem
    exact (handed_iff (bit_mask_of_mem hmem) val).1 (hhanded bitem hmem)
  · intro hstray bitem hmem
    exact (handed_iff (bit_mask_of_mem hmem) val).2 (hstray bitem hmem)

/-- For one content of a packed register all ranges are handed their bits exactly where no bit
is set in which their masks are wrong, and for every content exactly where all ranges have two
or four bits. -/
theorem decode_packed_hands_iff (packed_io_point : IoPoint) (json_bit_ranges : List JsonIoPoint)
    (hwithin : ∀ bitem ∈ bit_ranges packed_io_point json_bit_ranges,
      bitem.Within packed_io_point.size) :
    (∀ val < 2 ^ (packed_io_point.size * 16),
      (Hands packed_io_point.size (bit_ranges packed_io_point json_bit_ranges) val ↔
        ∀ bitem ∈ bit_ranges packed_io_point json_bit_ranges,
          val / 2 ^ bitem.starting_bit_pos &&& strayBits bitem.number_of_bits = 0)) ∧
    ((∀ val < 2 ^ (packed_io_point.size * 16),
        Hands packed_io_point.size (bit_ranges packed_io_point json_bit_ranges) val) ↔
      ∀ bitem ∈ bit_ranges packed_io_point json_bit_ranges,
        bitem.number_of_bits = 2 ∨ bitem.number_of_bits = 4) := by
  constructor
  · intro val hval
    exact hands_iff hval packed_io_point json_bit_ranges
  · constructor
    · intro hall bitem hmem
      have hlt := IoPoint.allBits_lt (hwithin bitem hmem)
      have hstray := (hands_iff hlt packed_io_point json_bit_ranges).1 (hall _ hlt) bitem hmem
      exact two_or_four_of_allBits (hwithin bitem hmem) hstray
    · intro hbits val hval
      rw [hands_iff hval]
      intro bitem hmem
      rw [strayBits_eq_zero (hbits bitem hmem), Nat.and_zero]

/-- A register of 16 bits in ranges of four. -/
theorem decode_packed_hands_iff_nibbles :
    let packed_io_point := extract_io_point ⟨some 1, none, none⟩ none
    let nibbles : List JsonIoPoint :=
      [⟨none, some 0, some 4⟩, ⟨none, some 4, some 4⟩, ⟨none, some 8, some 4⟩,
        ⟨none, some 12, some 4⟩]
    ∀ val < 2 ^ 16, Hands 1 (bit_ranges packed_io_point nibbles) val := by
  intro packed_io_point nibbles
  have hiff := decode_packed_hands_iff packed_io_point nibbles (by
    simp [packed_io_point, nibbles, bit_ranges, extract_io_point, IoPoint.Within])
  exact hiff.2.2 (by simp [nibbles, bit_ranges, extract_io_point])

/-- A range of one bit is handed zero where its bit is set. -/
theorem one_bit_lost :
    ¬ ∀ (packed_io_point : IoPoint) (json_bit_ranges : List JsonIoPoint),
      (∀ bitem ∈ bit_ranges packed_io_point json_bit_ranges,
        bitem.Within packed_io_point.size) →
      ∀ val < 2 ^ (packed_io_point.size * 16),
        Hands packed_io_point.size (bit_ranges packed_io_point json_bit_ranges) val := by
  intro hall
  have hhands := hall (extract_io_point ⟨some 1, none, none⟩ none) [⟨none, some 0, some 1⟩]
    (by simp [bit_ranges, extract_io_point, IoPoint.Within]) 1 (by norm_num [extract_io_point])
  have hdecode := hhands.1
  simp [decode_packed, bit_ranges, extract_io_point, IoPoint.bits] at hdecode

end HybridOs.GcomPacked
