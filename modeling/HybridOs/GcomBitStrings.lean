import Mathlib

/-!
# Strings of bits

A configuration gives strings to the bits of a register and may skip bits. The strings are kept
beside the numbers of their bits, but the decoders take the position of a string for its number.
-/

namespace HybridOs.GcomBitStrings

/-- An entry of the list `bit_strings` in the configuration. -/
inductive BitString where
  | text (stringData : String)
  | object (string : Option String) (value : Option ℕ)
  | empty
  | other

/-- `io_point_struct`, as far as its bits read it. -/
structure IoPoint where
  size : ℕ
  bits_known : ℕ
  bits_unknown : ℕ
  bit_str : List String
  bit_str_num : List ℕ

/-- `1 << bit_num`, of the type `int` and converted to 64 bits. It is undefined from 32 on. -/
def shiftedOne (undefined : ℕ → ℕ) (bit_num : ℕ) : ℕ :=
  if bit_num < 31 then 2 ^ bit_num
  else if bit_num = 31 then 2 ^ 64 - 2 ^ 31
  else undefined bit_num

/-- The bit is known, and the next one follows. -/
def IoPoint.known (undefined : ℕ → ℕ) (io_point : IoPoint) (bit_num : ℕ) : IoPoint × ℕ :=
  ({io_point with bits_known := io_point.bits_known ||| shiftedOne undefined bit_num},
    bit_num + 1)

/-- One entry of `bit_strings`. An entry of another type throws. -/
def extract_bitstring (undefined : ℕ → ℕ) (io_point : IoPoint) (bit_num : ℕ) :
    BitString → Option (IoPoint × ℕ)
  | .text stringData => some <|
    IoPoint.known undefined {io_point with
      bit_str := io_point.bit_str ++ [stringData]
      bit_str_num := io_point.bit_str_num ++ [bit_num]} bit_num
  | .object string value =>
    let bit_num := value.getD bit_num
    some <| IoPoint.known undefined {io_point with
      bit_str := io_point.bit_str ++ string.toList
      bit_str_num := io_point.bit_str_num ++ [bit_num]} bit_num
  | .empty => some <|
    IoPoint.known undefined {io_point with
      bit_str := io_point.bit_str ++ [""]
      bit_str_num := io_point.bit_str_num ++ [bit_num]
      bits_unknown := io_point.bits_unknown ||| shiftedOne undefined bit_num} bit_num
  | .other => none

/-- The entries from a bit on. -/
def extract_from (undefined : ℕ → ℕ) : IoPoint → ℕ → List BitString → Option IoPoint
  | io_point, _, [] => some io_point
  | io_point, bit_num, rawData :: rest =>
    (extract_bitstring undefined io_point bit_num rawData).bind fun extracted =>
      extract_from undefined extracted.1 extracted.2 rest

/-- `extract_bitstrings`, for a new point. -/
def extract_bitstrings (undefined : ℕ → ℕ) (size : ℕ) (rawDataList : List BitString) :
    Option IoPoint :=
  extract_from undefined
    { size := size
      bits_known := 0
      bits_unknown := 0
      bit_str := []
      bit_str_num := [] } 0 rawDataList

/-- The bit at a position is marked as unknown. -/
def IoPoint.isUnknown (undefined : ℕ → ℕ) (io_point : IoPoint) (idx : ℕ) : Bool :=
  io_point.bits_unknown &&& shiftedOne undefined idx != 0

/-- `decode_individual_bits`: the strings that are reported, with their states. -/
def decode_individual_bits (undefined : ℕ → ℕ) (io_point : IoPoint) (val : ℕ) :
    List (String × Bool) :=
  io_point.bit_str.zipIdx.filterMap fun entry =>
    if !io_point.isUnknown undefined entry.2 then some (entry.1, val.testBit entry.2) else none

/-- A bit that `decode_bit_field` reports. -/
structure Report where
  value : ℕ
  string : String
  deriving DecidableEq

/-- What is reported for the string at a position. -/
def IoPoint.reportAt (undefined : ℕ → ℕ) (io_point : IoPoint) (val : ℕ) (entry : String × ℕ) :
    Option Report :=
  let bval := if entry.1 = "IGNORE" then false else val.testBit entry.2
  if bval then
    some ⟨entry.2, if io_point.isUnknown undefined entry.2 then "unknown" else entry.1⟩
  else none

/-- `decode_bit_field`: the bits that are reported. -/
def decode_bit_field (undefined : ℕ → ℕ) (io_point : IoPoint) (val : ℕ) : List Report :=
  let last_idx := io_point.bit_str.length
  io_point.bit_str.zipIdx.filterMap (io_point.reportAt undefined val) ++
    (List.range' last_idx (io_point.size * 16 - last_idx)).filterMap fun last_idx =>
      if val.testBit last_idx then some ⟨last_idx, "unknown"⟩ else none

/-! ## What should be reported -/

/-- The string of an entry. -/
def BitString.string : BitString → Option String
  | .text stringData => some stringData
  | .object string _ => string
  | .empty => none
  | .other => none

/-- The strings with the numbers that `extract_bitstrings` gives to them. -/
def assigned (rawDataList : List BitString) (io_point : IoPoint) : List (ℕ × String) :=
  (rawDataList.zip io_point.bit_str_num).filterMap fun entry =>
    entry.1.string.map fun string => (entry.2, string)

/-- The string of a bit, or that it is unknown. -/
def label (strings : List (ℕ × String)) (number : ℕ) : String :=
  ((strings.find? fun entry => entry.1 = number).map (·.2)).getD "unknown"

/-- Exactly the set bits are reported, in their order and each with its own string, or as unknown
where it has none. -/
def FieldRight (undefined : ℕ → ℕ) (rawDataList : List BitString) (io_point : IoPoint)
    (val : ℕ) : Prop :=
  decode_bit_field undefined io_point val =
    (List.range (io_point.size * 16)).filterMap fun number =>
      if val.testBit number then some ⟨number, label (assigned rawDataList io_point) number⟩
      else none

/-- Each string is reported with the state of its bit. -/
def IndividualRight (undefined : ℕ → ℕ) (rawDataList : List BitString) (io_point : IoPoint)
    (val : ℕ) : Prop :=
  ∀ entry ∈ assigned rawDataList io_point,
    (entry.2, val.testBit entry.1) ∈ decode_individual_bits undefined io_point val

/-- The entries are strings, objects with a value and a string, or empty. Their numbers increase
from the next bit on and are below 64. -/
def Increasing : ℕ → List BitString → Prop
  | _, [] => True
  | bit_num, .text _ :: rest => bit_num < 64 ∧ Increasing (bit_num + 1) rest
  | bit_num, .object (some _) (some value) :: rest =>
    bit_num ≤ value ∧ value < 64 ∧ Increasing (value + 1) rest
  | bit_num, .empty :: rest => bit_num < 64 ∧ Increasing (bit_num + 1) rest
  | _, _ :: _ => False

/-! ## The list that is extracted -/

/-- The numbers of the entries and their strings. -/
def numbered : ℕ → List BitString → List (ℕ × Option String)
  | _, [] => []
  | bit_num, .object string value :: rest =>
    (value.getD bit_num, string) :: numbered (value.getD bit_num + 1) rest
  | bit_num, rawData :: rest => (bit_num, rawData.string) :: numbered (bit_num + 1) rest

/-- The strings of a list with their numbers. -/
def strings (rawDataList : List BitString) : List (ℕ × String) :=
  (numbered 0 rawDataList).filterMap fun entry => entry.2.map fun string => (entry.1, string)

/-- An empty entry marks the bit at a position. -/
def Marked (undefined : ℕ → ℕ) (entries : List (ℕ × Option String)) (idx : ℕ) : Prop :=
  ∃ entry ∈ entries, entry.2 = none ∧
    shiftedOne undefined entry.1 &&& shiftedOne undefined idx ≠ 0

instance (undefined : ℕ → ℕ) (entries : List (ℕ × Option String)) (idx : ℕ) :
    Decidable (Marked undefined entries idx) :=
  inferInstanceAs (Decidable (∃ entry ∈ entries, _))

/-- What `extract_bitstrings` makes of entries that are added to a point. -/
structure Adds (undefined : ℕ → ℕ) (entries : List (ℕ × Option String))
    (io_point extracted : IoPoint) : Prop where
  size : extracted.size = io_point.size
  bit_str : extracted.bit_str = io_point.bit_str ++ entries.map fun entry => entry.2.getD ""
  bit_str_num : extracted.bit_str_num = io_point.bit_str_num ++ entries.map (·.1)
  isUnknown : ∀ idx, extracted.isUnknown undefined idx = true ↔
    io_point.isUnknown undefined idx = true ∨ Marked undefined entries idx

variable {undefined : ℕ → ℕ}

theorem adds_nil (io_point : IoPoint) : Adds undefined [] io_point io_point where
  size := rfl
  bit_str := by simp
  bit_str_num := by simp
  isUnknown := by simp [Marked]

/-- One entry and then the others. -/
theorem Adds.cons {number : ℕ} {string : Option String}
    {entries : List (ℕ × Option String)} {io_point next extracted : IoPoint}
    (hfirst : Adds undefined [(number, string)] io_point next)
    (hrest : Adds undefined entries next extracted) :
    Adds undefined ((number, string) :: entries) io_point extracted where
  size := by rw [hrest.size, hfirst.size]
  bit_str := by
    rw [hrest.bit_str, hfirst.bit_str]
    simp
  bit_str_num := by
    rw [hrest.bit_str_num, hfirst.bit_str_num]
    simp
  isUnknown := by
    intro idx
    rw [hrest.isUnknown, hfirst.isUnknown]
    simp [Marked, or_assoc]

/-- A string is added. -/
theorem adds_string (io_point : IoPoint) (number : ℕ) (string : String) :
    Adds undefined [(number, some string)] io_point (IoPoint.known undefined {io_point with
        bit_str := io_point.bit_str ++ [string]
        bit_str_num := io_point.bit_str_num ++ [number]} number).1 where
  size := rfl
  bit_str := rfl
  bit_str_num := rfl
  isUnknown := by
    intro idx
    simp [Marked, IoPoint.isUnknown, IoPoint.known]

/-- An empty entry is added. -/
theorem adds_empty (io_point : IoPoint) (number : ℕ) :
    Adds undefined [(number, none)] io_point (IoPoint.known undefined {io_point with
        bit_str := io_point.bit_str ++ [""]
        bit_str_num := io_point.bit_str_num ++ [number]
        bits_unknown := io_point.bits_unknown ||| shiftedOne undefined number} number).1 where
  size := rfl
  bit_str := rfl
  bit_str_num := rfl
  isUnknown := by
    intro idx
    simp only [Marked, IoPoint.isUnknown, IoPoint.known, bne_iff_ne, ne_eq, List.mem_singleton,
      exists_eq_left, true_and, Nat.and_or_distrib_right, Nat.or_eq_zero_iff, not_and_or]

/-- All entries of a list are added. -/
theorem extract_from_adds {bit_num : ℕ} {rawDataList : List BitString} :
    ∀ io_point : IoPoint, Increasing bit_num rawDataList →
      ∃ extracted, extract_from undefined io_point bit_num rawDataList = some extracted ∧
        Adds undefined (numbered bit_num rawDataList) io_point extracted := by
  induction rawDataList generalizing bit_num with
  | nil =>
    intro io_point _
    exact ⟨io_point, rfl, adds_nil io_point⟩
  | cons rawData rest ih =>
    intro io_point hincreasing
    cases rawData with
    | text stringData =>
      obtain ⟨extracted, hextract, hadds⟩ := ih _ hincreasing.2
      exact ⟨extracted, hextract, (adds_string io_point bit_num stringData).cons hadds⟩
    | object string value =>
      cases string with
      | none => exact absurd hincreasing id
      | some string =>
        cases value with
        | none => exact absurd hincreasing id
        | some value =>
          obtain ⟨extracted, hextract, hadds⟩ := ih _ hincreasing.2.2
          exact ⟨extracted, hextract, (adds_string io_point value string).cons hadds⟩
    | empty =>
      obtain ⟨extracted, hextract, hadds⟩ := ih _ hincreasing.2
      exact ⟨extracted, hextract, (adds_empty io_point bit_num).cons hadds⟩
    | other => exact absurd hincreasing id

/-- The numbers that are assigned are the ones of the list. -/
theorem assigned_numbered (rawDataList : List BitString) (bit_num : ℕ) :
    (rawDataList.zip ((numbered bit_num rawDataList).map (·.1))).filterMap (fun entry =>
        entry.1.string.map fun string => (entry.2, string)) =
      (numbered bit_num rawDataList).filterMap fun entry =>
        entry.2.map fun string => (entry.1, string) := by
  induction rawDataList generalizing bit_num with
  | nil => rfl
  | cons rawData rest ih =>
    cases rawData <;>
      simp only [numbered, List.map_cons, List.zip_cons_cons, List.filterMap_cons, ih]
    rfl

/-- What is known of the point of a list. -/
structure Extracts (undefined : ℕ → ℕ) (size : ℕ) (rawDataList : List BitString)
    (io_point : IoPoint) : Prop where
  size : io_point.size = size
  bit_str : io_point.bit_str = (numbered 0 rawDataList).map fun entry => entry.2.getD ""
  assigned : assigned rawDataList io_point = strings rawDataList
  isUnknown : ∀ idx, io_point.isUnknown undefined idx = true ↔
    Marked undefined (numbered 0 rawDataList) idx

theorem extract_bitstrings_eq (undefined : ℕ → ℕ) (size : ℕ) {rawDataList : List BitString}
    (hincreasing : Increasing 0 rawDataList) :
    ∃ io_point, extract_bitstrings undefined size rawDataList = some io_point ∧
      Extracts undefined size rawDataList io_point := by
  obtain ⟨io_point, hextract, hadds⟩ := @extract_from_adds undefined _ _
    { size := size, bits_known := 0, bits_unknown := 0, bit_str := [], bit_str_num := [] }
    hincreasing
  refine ⟨io_point, hextract, hadds.size, by simpa using hadds.bit_str, ?_, ?_⟩
  · rw [assigned, hadds.bit_str_num, List.nil_append, assigned_numbered, strings]
  · intro idx
    rw [hadds.isUnknown]
    simp [IoPoint.isUnknown]

/-! ## Bit fields -/

/-- What stands for a bit: the text at its position, or that it is unknown. -/
def IoPoint.shown (undefined : ℕ → ℕ) (io_point : IoPoint) (number : ℕ) : Option String :=
  match io_point.bit_str[number]? with
  | none => some "unknown"
  | some string =>
    if string = "IGNORE" then none
    else some (if io_point.isUnknown undefined number then "unknown" else string)

theorem mem_reports_iff (io_point : IoPoint) (val : ℕ) (report : Report) :
    report ∈ io_point.bit_str.zipIdx.filterMap (io_point.reportAt undefined val) ↔
      report.value < io_point.bit_str.length ∧ val.testBit report.value = true ∧
        io_point.shown undefined report.value = some report.string := by
  rw [List.mem_filterMap]
  constructor
  · rintro ⟨⟨string, idx⟩, hmem, hreport⟩
    have hget : io_point.bit_str[idx]? = some string := List.mk_mem_zipIdx_iff_getElem?.1 hmem
    have hlength : idx < io_point.bit_str.length := (List.getElem?_eq_some_iff.1 hget).1
    by_cases hignore : string = "IGNORE"
    · simp [IoPoint.reportAt, hignore] at hreport
    · by_cases hbit : val.testBit idx = true
      · simp only [IoPoint.reportAt, if_neg hignore, if_pos hbit, Option.some.injEq] at hreport
        rw [← hreport]
        exact ⟨hlength, hbit, by simp [IoPoint.shown, hget, hignore]⟩
      · simp [IoPoint.reportAt, hbit] at hreport
  · rintro ⟨hlength, hbit, hshown⟩
    have hget := List.getElem?_eq_getElem hlength
    refine ⟨(io_point.bit_str[report.value], report.value),
      List.mk_mem_zipIdx_iff_getElem?.2 hget, ?_⟩
    rw [IoPoint.shown, hget] at hshown
    by_cases hignore : io_point.bit_str[report.value] = "IGNORE"
    · simp [hignore] at hshown
    · simp only [if_neg hignore, Option.some.injEq] at hshown
      simp only [IoPoint.reportAt, if_neg hignore, if_pos hbit, hshown]

/-- The bits of a register that are set. -/
theorem lt_of_testBit {width val number : ℕ} (hval : val < 2 ^ width)
    (hbit : val.testBit number = true) : number < width := by
  by_contra hlarge
  have hle : 2 ^ width ≤ 2 ^ number := Nat.pow_le_pow_right (by norm_num) (not_lt.1 hlarge)
  rw [Nat.testBit_lt_two_pow (by omega)] at hbit
  contradiction

theorem mem_decode_iff {io_point : IoPoint} {val : ℕ} (hval : val < 2 ^ (io_point.size * 16))
    (report : Report) :
    report ∈ decode_bit_field undefined io_point val ↔
      val.testBit report.value = true ∧
        io_point.shown undefined report.value = some report.string := by
  rw [decode_bit_field, List.mem_append, mem_reports_iff, List.mem_filterMap]
  simp only [List.mem_range'_1]
  constructor
  · rintro (⟨-, hbit, hshown⟩ | ⟨number, hrange, hreport⟩)
    · exact ⟨hbit, hshown⟩
    · split_ifs at hreport with hbit
      cases hreport
      refine ⟨hbit, ?_⟩
      rw [IoPoint.shown, List.getElem?_eq_none hrange.1]
  · rintro ⟨hbit, hshown⟩
    have hlt := lt_of_testBit hval hbit
    by_cases hlength : report.value < io_point.bit_str.length
    · exact Or.inl ⟨hlength, hbit, hshown⟩
    · refine Or.inr ⟨report.value, by omega, ?_⟩
      rw [IoPoint.shown, List.getElem?_eq_none (by omega), Option.some.injEq] at hshown
      rw [if_pos hbit, hshown]

/-- The bits are reported in their order. -/
theorem decode_bit_field_sorted (io_point : IoPoint) (val : ℕ) :
    (decode_bit_field undefined io_point val).Pairwise fun earlier later =>
      earlier.value < later.value := by
  have hpositions : io_point.bit_str.zipIdx.Pairwise fun earlier later =>
      earlier.2 < later.2 := by
    have hrange : (io_point.bit_str.zipIdx.map (·.2)).Pairwise (· < ·) := by
      rw [List.zipIdx_map_snd]
      exact List.pairwise_lt_range'
    exact List.pairwise_map.1 hrange
  rw [decode_bit_field, List.pairwise_append]
  refine ⟨?_, ?_, ?_⟩
  · rw [List.pairwise_filterMap]
    refine hpositions.imp fun hlt earlier hearlier later hlater => ?_
    rw [IoPoint.reportAt] at hearlier hlater
    split_ifs at hearlier hlater
    all_goals
      cases hearlier
      cases hlater
      exact hlt
  · rw [List.pairwise_filterMap]
    refine List.Pairwise.imp ?_ List.pairwise_lt_range'
    intro first second hlt earlier hearlier later hlater
    split_ifs at hearlier hlater
    cases hearlier
    cases hlater
    exact hlt
  · intro earlier hearlier later hlater
    have hlength := ((mem_reports_iff io_point val earlier).1 hearlier).1
    obtain ⟨number, hrange, hreport⟩ := List.mem_filterMap.1 hlater
    have hnumber := (List.mem_range'_1.1 hrange).1
    split_ifs at hreport
    cases hreport
    exact hlength.trans_le hnumber

/-- A bit field is right exactly where each set bit is shown with its own label. -/
theorem fieldRight_iff {rawDataList : List BitString} {io_point : IoPoint} {val : ℕ}
    (hval : val < 2 ^ (io_point.size * 16)) :
    FieldRight undefined rawDataList io_point val ↔
      ∀ number < io_point.size * 16, val.testBit number = true →
        io_point.shown undefined number = some (label (assigned rawDataList io_point) number) := by
  have hmem : ∀ report : Report,
      (report ∈ (List.range (io_point.size * 16)).filterMap fun number =>
        if val.testBit number then
          some (⟨number, label (assigned rawDataList io_point) number⟩ : Report)
        else none) ↔
      report.value < io_point.size * 16 ∧ val.testBit report.value = true ∧
        label (assigned rawDataList io_point) report.value = report.string := by
    intro report
    rw [List.mem_filterMap]
    constructor
    · rintro ⟨number, hrange, hreport⟩
      split_ifs at hreport with hbit
      cases hreport
      exact ⟨List.mem_range.1 hrange, hbit, rfl⟩
    · rintro ⟨hrange, hbit, hlabel⟩
      refine ⟨report.value, List.mem_range.2 hrange, ?_⟩
      rw [if_pos hbit, hlabel]
  rw [FieldRight]
  constructor
  · intro hright number hnumber hbit
    have hreport := (hmem ⟨number, label (assigned rawDataList io_point) number⟩).2
      ⟨hnumber, hbit, rfl⟩
    rw [← hright, mem_decode_iff hval] at hreport
    exact hreport.2
  · intro hshown
    have hsorted : ((List.range (io_point.size * 16)).filterMap fun number =>
        if val.testBit number then
          some (⟨number, label (assigned rawDataList io_point) number⟩ : Report)
        else none).Pairwise fun earlier later => earlier.value < later.value := by
      rw [List.pairwise_filterMap]
      refine List.pairwise_lt_range.imp fun hlt earlier hearlier later hlater => ?_
      split_ifs at hearlier hlater
      cases hearlier
      cases hlater
      exact hlt
    have hantisymm : Std.Antisymm fun earlier later : Report => earlier.value < later.value :=
      ⟨fun earlier later hlt hgt => absurd hlt (by omega)⟩
    have hirrefl : Std.Irrefl fun earlier later : Report => earlier.value < later.value :=
      ⟨fun report => lt_irrefl report.value⟩
    refine (decode_bit_field_sorted io_point val).eq_of_mem_iff hsorted fun report => ?_
    rw [mem_decode_iff hval, hmem]
    constructor
    · rintro ⟨hbit, hreport⟩
      have hsmall := lt_of_testBit hval hbit
      have hlabel := (hshown report.value hsmall hbit).symm.trans hreport
      exact ⟨hsmall, hbit, Option.some.inj hlabel⟩
    · rintro ⟨hsmall, hbit, hlabel⟩
      refine ⟨hbit, ?_⟩
      rw [hshown report.value hsmall hbit, hlabel]

/-! ## Individual bits -/

theorem mem_individual_iff (io_point : IoPoint) (val : ℕ) (string : String) (bval : Bool) :
    (string, bval) ∈ decode_individual_bits undefined io_point val ↔
      ∃ idx, io_point.bit_str[idx]? = some string ∧ io_point.isUnknown undefined idx = false ∧
        val.testBit idx = bval := by
  rw [decode_individual_bits, List.mem_filterMap]
  constructor
  · rintro ⟨⟨text, idx⟩, hmem, hreport⟩
    cases hunknown : io_point.isUnknown undefined idx with
    | true => simp [hunknown] at hreport
    | false =>
      simp only [hunknown, Bool.not_false, if_true, Option.some.injEq, Prod.mk.injEq] at hreport
      rw [← hreport.1, ← hreport.2]
      exact ⟨idx, List.mk_mem_zipIdx_iff_getElem?.1 hmem, hunknown, rfl⟩
  · rintro ⟨idx, hget, hunknown, hbit⟩
    refine ⟨(string, idx), List.mk_mem_zipIdx_iff_getElem?.2 hget, ?_⟩
    simp [hunknown, hbit]

/-! ## When the bits are reported right -/

/-- What a list shows for a bit: the text of the entry at its position, or that it is unknown. -/
def shownAs (undefined : ℕ → ℕ) (entries : List (ℕ × Option String)) (number : ℕ) :
    Option String :=
  match entries[number]? with
  | none => some "unknown"
  | some entry =>
    if entry.2 = some "IGNORE" then none
    else some (if Marked undefined entries number then "unknown" else entry.2.getD "")

/-- Some entry with the string, not marked as unknown, is at the position of a bit with the
state. -/
def StandsAt (undefined : ℕ → ℕ) (entries : List (ℕ × Option String)) (val : ℕ)
    (string : String) (state : Bool) : Prop :=
  ∃ idx, (entries[idx]?.map fun entry => entry.2.getD "") = some string ∧
    ¬ Marked undefined entries idx ∧ val.testBit idx = state

theorem getD_eq_ignore (string : Option String) :
    string.getD "" = "IGNORE" ↔ string = some "IGNORE" := by
  cases string with
  | none | some string => simp

variable {size : ℕ} {rawDataList : List BitString} {io_point : IoPoint}

section

variable (hextracts : Extracts undefined size rawDataList io_point)
include hextracts

theorem Extracts.shown_eq (number : ℕ) :
    io_point.shown undefined number = shownAs undefined (numbered 0 rawDataList) number := by
  rw [IoPoint.shown, shownAs, hextracts.bit_str, List.getElem?_map]
  cases (numbered 0 rawDataList)[number]? with
  | none => rfl
  | some entry =>
    simp only [Option.map_some, getD_eq_ignore, hextracts.isUnknown]

theorem Extracts.fieldRight_iff {val : ℕ} (hval : val < 2 ^ (size * 16)) :
    FieldRight undefined rawDataList io_point val ↔
      ∀ number < size * 16, val.testBit number = true →
        shownAs undefined (numbered 0 rawDataList) number =
          some (label (strings rawDataList) number) := by
  rw [← hextracts.size] at hval ⊢
  rw [GcomBitStrings.fieldRight_iff hval, hextracts.assigned]
  simp only [hextracts.shown_eq]

theorem Extracts.individualRight_iff (val : ℕ) :
    IndividualRight undefined rawDataList io_point val ↔
      ∀ entry ∈ strings rawDataList, StandsAt undefined (numbered 0 rawDataList) val entry.2
        (val.testBit entry.1) := by
  have hunknown : ∀ idx, io_point.isUnknown undefined idx = false ↔
      ¬ Marked undefined (numbered 0 rawDataList) idx := by
    intro idx
    rw [← hextracts.isUnknown, Bool.not_eq_true]
  rw [IndividualRight, hextracts.assigned]
  simp only [mem_individual_iff, StandsAt, hextracts.bit_str, List.getElem?_map, hunknown]

end

/-! ## Numbers and marks of a list -/

/-- No number is below the position of its entry, counted from the first bit. -/
theorem le_number {bit_num idx : ℕ} {entry : ℕ × Option String}
    (hincreasing : Increasing bit_num rawDataList)
    (hget : (numbered bit_num rawDataList)[idx]? = some entry) : bit_num + idx ≤ entry.1 := by
  induction rawDataList generalizing bit_num idx with
  | nil => simp [numbered] at hget
  | cons rawData rest ih =>
    cases rawData with
    | text stringData =>
      cases idx with
      | zero =>
        cases hget
        exact le_refl bit_num
      | succ idx => have hle := ih hincreasing.2 hget; omega
    | object string value =>
      cases string with
      | none => exact absurd hincreasing id
      | some string =>
        cases value with
        | none => exact absurd hincreasing id
        | some value =>
          have hvalue := hincreasing.1
          cases idx with
          | zero =>
            cases hget
            exact hvalue
          | succ idx => have hle := ih hincreasing.2.2 hget; omega
    | empty =>
      cases idx with
      | zero =>
        cases hget
        exact le_refl bit_num
      | succ idx => have hle := ih hincreasing.2 hget; omega
    | other => exact absurd hincreasing id

/-- The numbers increase. -/
theorem numbered_sorted {bit_num : ℕ} (hincreasing : Increasing bit_num rawDataList) :
    (numbered bit_num rawDataList).Pairwise fun earlier later => earlier.1 < later.1 := by
  have hrest : ∀ {next rest}, Increasing next rest →
      ∀ entry ∈ numbered next rest, next ≤ entry.1 := by
    intro next rest hrest entry hentry
    obtain ⟨idx, hget⟩ := List.mem_iff_getElem?.1 hentry
    have hle := le_number hrest hget
    omega
  induction rawDataList generalizing bit_num with
  | nil => exact List.Pairwise.nil
  | cons rawData rest ih =>
    cases rawData with
    | text stringData =>
      exact List.pairwise_cons.2 ⟨hrest hincreasing.2, ih hincreasing.2⟩
    | object string value =>
      cases string with
      | none => exact absurd hincreasing id
      | some string =>
        cases value with
        | none => exact absurd hincreasing id
        | some value =>
          exact List.pairwise_cons.2 ⟨hrest hincreasing.2.2, ih hincreasing.2.2⟩
    | empty => exact List.pairwise_cons.2 ⟨hrest hincreasing.2, ih hincreasing.2⟩
    | other => exact absurd hincreasing id

/-- An empty entry can mark the bit at a position: the numbers are the same, or one of the shifts
is undefined. -/
def MayMark (entries : List (ℕ × Option String)) (idx : ℕ) : Prop :=
  ∃ entry ∈ entries, entry.2 = none ∧ (entry.1 = idx ∨ 32 ≤ entry.1 ∨ 32 ≤ idx)

instance (entries : List (ℕ × Option String)) (idx : ℕ) : Decidable (MayMark entries idx) :=
  inferInstanceAs (Decidable (∃ entry ∈ entries, _))

/-- A shift below 32 sets its bit, and from 31 on with the sign of the result. -/
theorem testBit_shiftedOne {number : ℕ} (hnumber : number < 32) (idx : ℕ) :
    (shiftedOne undefined number).testBit idx = true ↔
      if number < 31 then idx = number else 31 ≤ idx ∧ idx < 64 := by
  rw [shiftedOne]
  by_cases hsmall : number < 31
  · rw [if_pos hsmall, if_pos hsmall, Nat.testBit_two_pow, decide_eq_true_iff]
    exact eq_comm
  · have hsign : (2 ^ 64 - 2 ^ 31 : ℕ) = 2 ^ 64 - (2 ^ 31 - 1 + 1) := by norm_num
    rw [if_neg hsmall, if_pos (by omega), if_neg hsmall, hsign,
      Nat.testBit_two_pow_sub_succ (by norm_num), Nat.testBit_two_pow_sub_one]
    simp
    omega

/-- Two shifts below 32 have a bit in common where the numbers are the same. -/
theorem shiftedOne_land_iff {first second : ℕ} (hfirst : first < 32) (hsecond : second < 32) :
    shiftedOne undefined first &&& shiftedOne undefined second ≠ 0 ↔ first = second := by
  constructor
  · intro hcommon
    obtain ⟨idx, hbit⟩ := Nat.exists_testBit_of_ne_zero hcommon
    rw [Nat.testBit_and, Bool.and_eq_true, testBit_shiftedOne hfirst,
      testBit_shiftedOne hsecond] at hbit
    split_ifs at hbit <;> omega
  · rintro rfl hzero
    have hbit := (@testBit_shiftedOne undefined first hfirst first).2 (by split_ifs <;> omega)
    rw [Nat.and_self] at hzero
    rw [hzero, Nat.zero_testBit] at hbit
    exact absurd hbit (by decide)

/-- An empty entry marks the position of its own bit below 32. -/
theorem marked_of_empty {entries : List (ℕ × Option String)} {number : ℕ}
    (hentry : (number, none) ∈ entries) (hnumber : number < 32) :
    Marked undefined entries number :=
  ⟨(number, none), hentry, rfl, (shiftedOne_land_iff hnumber hnumber).2 rfl⟩

theorem mayMark_of_marked {entries : List (ℕ × Option String)} {idx : ℕ}
    (hmarked : Marked undefined entries idx) : MayMark entries idx := by
  obtain ⟨entry, hentry, hempty, hcommon⟩ := hmarked
  refine ⟨entry, hentry, hempty, ?_⟩
  by_cases hsmall : entry.1 < 32 ∧ idx < 32
  · exact Or.inl ((shiftedOne_land_iff hsmall.1 hsmall.2).1 hcommon)
  · omega

/-- Where an undefined shift gives zero, only the bit of an empty entry itself is marked. -/
theorem empty_of_marked_zero {entries : List (ℕ × Option String)} {idx : ℕ}
    (hmarked : Marked (fun _ => 0) entries idx) : (idx, none) ∈ entries ∧ idx < 32 := by
  obtain ⟨⟨number, string⟩, hentry, hempty, hcommon⟩ := hmarked
  have hlow : ∀ high, ¬ high < 32 → shiftedOne (fun _ => 0) high = 0 := by
    intro high hhigh
    rw [shiftedOne, if_neg (by omega), if_neg (by omega)]
  have hnumber : number < 32 := by
    by_contra hhigh
    simp [hlow number hhigh] at hcommon
  have hidx : idx < 32 := by
    by_contra hhigh
    simp [hlow idx hhigh] at hcommon
  cases hempty
  rw [← (shiftedOne_land_iff hnumber hidx).1 hcommon]
  exact ⟨hentry, hnumber⟩

/-- Where an undefined shift gives all ones, each bit that can be marked is. -/
theorem marked_ones_of_mayMark {entries : List (ℕ × Option String)} {idx : ℕ}
    (hmark : MayMark entries idx) : Marked (fun _ => 2 ^ 64 - 1) entries idx := by
  obtain ⟨entry, hentry, hempty, hwhere⟩ := hmark
  refine ⟨entry, hentry, hempty, ?_⟩
  have hlow : ∀ number, (shiftedOne (fun _ => 2 ^ 64 - 1) number).testBit (min number 31) = true := by
    intro number
    by_cases hnumber : number < 32
    · rw [testBit_shiftedOne hnumber]
      split_ifs <;> omega
    · rw [shiftedOne, if_neg (by omega), if_neg (by omega), Nat.testBit_two_pow_sub_one]
      simp
  have hhigh : ∀ {number}, 32 ≤ number → ∀ bit < 64,
      (shiftedOne (fun _ => 2 ^ 64 - 1) number).testBit bit = true := by
    intro number hnumber bit hbit
    rw [shiftedOne, if_neg (by omega), if_neg (by omega), Nat.testBit_two_pow_sub_one]
    exact decide_eq_true hbit
  have hcommon : ∃ bit, (shiftedOne (fun _ => 2 ^ 64 - 1) entry.1 &&&
      shiftedOne (fun _ => 2 ^ 64 - 1) idx).testBit bit = true := by
    simp only [Nat.testBit_and, Bool.and_eq_true]
    rcases hwhere with hsame | hnumber | hidx
    · exact ⟨_, hlow entry.1, by rw [hsame]; exact hlow idx⟩
    · exact ⟨_, hhigh hnumber _ (by omega), hlow idx⟩
    · exact ⟨_, hlow entry.1, hhigh hidx _ (by omega)⟩
  obtain ⟨bit, hbit⟩ := hcommon
  intro hzero
  rw [hzero, Nat.zero_testBit] at hbit
  exact absurd hbit (by decide)

/-! ## Every list -/

/-- Each entry at the position of a bit of the register shows what is configured for the bit. A
string other than unknown is at the position of its own bit, which no empty entry can mark, and
it is not the text that is left out. An empty entry is there too, and
its mark reaches the bit. -/
def FieldTable (size : ℕ) (entries : List (ℕ × Option String)) : Prop :=
  ∀ idx < size * 16, ∀ number string, entries[idx]? = some (number, string) →
    match string with
    | some string => string ≠ "IGNORE" ∧
      (string = "unknown" ∨ number = idx ∧ ¬ MayMark entries idx)
    | none => number = idx ∧ idx < 32

/-- Each string of a bit of the register is at the position of its own bit, which no empty entry
can mark. A string of a bit beyond the register is so at some position beyond it. -/
def IndividualTable (size : ℕ) (entries : List (ℕ × Option String)) : Prop :=
  ∀ number string, (number, some string) ∈ entries →
    ∃ idx, (entries[idx]?.map fun entry => entry.2.getD "") = some string ∧
      ¬ MayMark entries idx ∧ if number < size * 16 then idx = number else size * 16 ≤ idx

theorem mem_strings_iff (number : ℕ) (string : String) :
    (number, string) ∈ strings rawDataList ↔ (number, some string) ∈ numbered 0 rawDataList := by
  rw [strings, List.mem_filterMap]
  constructor
  · rintro ⟨⟨other, _ | text⟩, hmem, heq⟩
    · cases heq
    · cases heq
      exact hmem
  · intro hmem
    exact ⟨_, hmem, rfl⟩

section

variable (hincreasing : Increasing 0 rawDataList)
include hincreasing

/-- A number stands at one position only. -/
theorem idx_eq_of_number {first second number : ℕ} {string text : Option String}
    (hfirst : (numbered 0 rawDataList)[first]? = some (number, string))
    (hsecond : (numbered 0 rawDataList)[second]? = some (number, text)) : first = second := by
  have hsorted := numbered_sorted hincreasing
  obtain ⟨hfirstLt, hfirstGet⟩ := List.getElem?_eq_some_iff.1 hfirst
  obtain ⟨hsecondLt, hsecondGet⟩ := List.getElem?_eq_some_iff.1 hsecond
  rcases lt_trichotomy first second with hlt | heq | hgt
  · have hnumber := List.pairwise_iff_getElem.1 hsorted first second hfirstLt hsecondLt hlt
    simp [hfirstGet, hsecondGet] at hnumber
  · exact heq
  · have hnumber := List.pairwise_iff_getElem.1 hsorted second first hsecondLt hfirstLt hgt
    simp [hfirstGet, hsecondGet] at hnumber

/-- The label of a number is the string of its entry. -/
theorem label_eq_of_mem {number : ℕ} {string : String}
    (hmem : (number, some string) ∈ numbered 0 rawDataList) :
    label (strings rawDataList) number = string := by
  obtain ⟨idx, hidx⟩ := List.mem_iff_getElem?.1 hmem
  rw [label]
  cases hfind : (strings rawDataList).find? fun entry => entry.1 = number with
  | none =>
    have hother := List.find?_eq_none.1 hfind _ ((mem_strings_iff number string).2 hmem)
    simp at hother
  | some entry =>
    obtain ⟨other, text⟩ := entry
    have hnumber : other = number := by simpa using List.find?_some hfind
    have hentry := (mem_strings_iff other text).1 (List.mem_of_find?_eq_some hfind)
    rw [hnumber] at hentry
    obtain ⟨second, hsecond⟩ := List.mem_iff_getElem?.1 hentry
    cases idx_eq_of_number hincreasing hidx hsecond
    rw [hidx] at hsecond
    cases hsecond
    rfl

end

/-- The label of a number is unknown where no entry has another string for it. -/
theorem label_eq_unknown {number : ℕ}
    (hnone : ∀ string, (number, some string) ∈ numbered 0 rawDataList → string = "unknown") :
    label (strings rawDataList) number = "unknown" := by
  rw [label]
  cases hfind : (strings rawDataList).find? fun entry => entry.1 = number with
  | none => rfl
  | some entry =>
    obtain ⟨other, text⟩ := entry
    have hnumber : other = number := by simpa using List.find?_some hfind
    have hentry := (mem_strings_iff other text).1 (List.mem_of_find?_eq_some hfind)
    exact hnone text (hnumber ▸ hentry)

section

variable (hincreasing : Increasing 0 rawDataList)
include hincreasing

/-- No entry stands after the position of its number. -/
theorem idx_le_number {idx number : ℕ} {string : Option String}
    (hget : (numbered 0 rawDataList)[idx]? = some (number, string)) : idx ≤ number := by
  have hle := le_number hincreasing hget
  omega

/-- Each bit is shown with its label where the entries stand right. -/
theorem shownAs_of_fieldTable (htable : FieldTable size (numbered 0 rawDataList)) {number : ℕ}
    (hnumber : number < size * 16) :
    shownAs undefined (numbered 0 rawDataList) number =
      some (label (strings rawDataList) number) := by
  -- A string of the bit that stands at another position is unknown.
  have helsewhere : ∀ string, (number, some string) ∈ numbered 0 rawDataList →
      string = "unknown" ∨ (numbered 0 rawDataList)[number]? = some (number, some string) := by
    intro string hmem
    obtain ⟨idx, hidx⟩ := List.mem_iff_getElem?.1 hmem
    have hle := idx_le_number hincreasing hidx
    rcases (htable idx (by omega) number _ hidx).2 with hunknown | ⟨rfl, -⟩
    · exact Or.inl hunknown
    · exact Or.inr hidx
  rw [shownAs]
  cases hget : (numbered 0 rawDataList)[number]? with
  | none =>
    rw [label_eq_unknown fun string hmem => ?_]
    rcases helsewhere string hmem with hunknown | hsame
    · exact hunknown
    · rw [hget] at hsame
      cases hsame
  | some entry =>
    obtain ⟨other, string⟩ := entry
    have hentry := htable number hnumber other string hget
    cases string with
    | none =>
      obtain ⟨rfl, hsmall⟩ := hentry
      have hmarked : Marked undefined _ _ := marked_of_empty (List.mem_of_getElem? hget) hsmall
      rw [label_eq_unknown fun string hmem => ?_]
      · simp [hmarked]
      rcases helsewhere string hmem with hunknown | hsame
      · exact hunknown
      · rw [hget] at hsame
        cases hsame
    | some string =>
      obtain ⟨hignore, rfl | ⟨rfl, hunmarked⟩⟩ := hentry
      · rw [label_eq_unknown fun string hmem => ?_]
        · simp
        rcases helsewhere string hmem with hunknown | hsame
        · exact hunknown
        · rw [hget] at hsame
          cases hsame
          rfl
      · rw [label_eq_of_mem hincreasing (List.mem_of_getElem? hget)]
        have hmarked : ¬ Marked undefined (numbered 0 rawDataList) other := fun hmarked =>
          hunmarked (mayMark_of_marked hmarked)
        simp [hignore, hmarked]

/-- The entries stand right where each bit is shown with its label, whatever the undefined
shifts give. -/
theorem fieldTable_of_shownAs
    (hshown : ∀ undefined, ∀ number < size * 16, shownAs undefined (numbered 0 rawDataList) number =
      some (label (strings rawDataList) number)) :
    FieldTable size (numbered 0 rawDataList) := by
  intro idx
  -- An entry before the position has the number of its own position, or its text is unknown.
  induction idx using Nat.strong_induction_on with
  | _ idx ih =>
    intro hidx number string hget
    have hearlier : ∀ other text, other < idx → (numbered 0 rawDataList)[other]? = some (idx, text) →
        text = some "unknown" := by
      intro other text hother hsame
      have hentry := ih other hother (by omega) idx text hsame
      cases text with
      | none => exact absurd hentry.1 (by omega)
      | some text =>
        rcases hentry.2 with rfl | ⟨heq, -⟩
        · rfl
        · exact absurd heq (by omega)
    have hwhere : ∀ text, (idx, text) ∈ numbered 0 rawDataList →
        text = some "unknown" ∨ (numbered 0 rawDataList)[idx]? = some (idx, text) := by
      intro text hmem
      obtain ⟨other, hother⟩ := List.mem_iff_getElem?.1 hmem
      rcases (idx_le_number hincreasing hother).lt_or_eq with hlt | rfl
      · exact Or.inl (hearlier other text hlt hother)
      · exact Or.inr hother
    have hzero := hshown (fun _ => 0) idx hidx
    have hones := hshown (fun _ => 2 ^ 64 - 1) idx hidx
    rw [shownAs, hget] at hzero hones
    cases string with
    | some string =>
      have hignore : string ≠ "IGNORE" := by
        rintro rfl
        simp at hzero
      refine ⟨hignore, ?_⟩
      by_cases hunknown : string = "unknown"
      · exact Or.inl hunknown
      · right
        simp only [Option.some.injEq, if_neg hignore, Option.getD_some] at hzero hones
        by_cases hsame : number = idx
        · subst hsame
          refine ⟨rfl, fun hmark => hunknown ?_⟩
          rw [label_eq_of_mem hincreasing (List.mem_of_getElem? hget),
            if_pos (marked_ones_of_mayMark hmark)] at hones
          exact hones.symm
        · exfalso
          rw [label_eq_unknown fun text hmem => ?_] at hzero
          · split_ifs at hzero with hmarked
            · rcases hwhere none (empty_of_marked_zero hmarked).1 with hempty | hsecond
              · cases hempty
              · rw [hget] at hsecond
                cases hsecond
            · exact hunknown hzero
          · rcases hwhere (some text) hmem with htext | hsecond
            · exact Option.some.inj htext
            · rw [hget] at hsecond
              cases hsecond
              exact absurd rfl hsame
    | none =>
      have hmarked : Marked (fun _ => 0) (numbered 0 rawDataList) idx := by
        by_contra hunmarked
        simp only [reduceCtorEq, if_false, if_neg hunmarked, Option.getD_none,
          Option.some.injEq] at hzero
        rw [label_eq_unknown fun text hmem => ?_] at hzero
        · exact absurd hzero (by decide)
        rcases hwhere (some text) hmem with htext | hsecond
        · exact Option.some.inj htext
        · rw [hget] at hsecond
          cases hsecond
      obtain ⟨hempty, hsmall⟩ := empty_of_marked_zero hmarked
      rcases hwhere none hempty with htext | hsecond
      · cases htext
      · rw [hget] at hsecond
        cases hsecond
        exact ⟨rfl, hsmall⟩

end

/-- A bit field reports the bits of every register right, whatever the undefined shifts give,
exactly where its table shows what is configured. -/
theorem fieldRight_all_iff (hincreasing : Increasing 0 rawDataList) :
    (∀ undefined, ∃ io_point, extract_bitstrings undefined size rawDataList = some io_point ∧
        ∀ val < 2 ^ (size * 16), FieldRight undefined rawDataList io_point val) ↔
      FieldTable size (numbered 0 rawDataList) := by
  constructor
  · intro hright
    apply fieldTable_of_shownAs hincreasing
    intro undefined number hnumber
    obtain ⟨io_point, hextract, hall⟩ := hright undefined
    obtain ⟨extracted, hsame, hextracts⟩ := extract_bitstrings_eq undefined size hincreasing
    rw [hextract] at hsame
    cases hsame
    have hval : 2 ^ number < 2 ^ (size * 16) := Nat.pow_lt_pow_right (by norm_num) hnumber
    exact (hextracts.fieldRight_iff hval).1 (hall _ hval) number hnumber (Nat.testBit_two_pow_self)
  · intro htable undefined
    obtain ⟨io_point, hextract, hextracts⟩ := extract_bitstrings_eq undefined size hincreasing
    refine ⟨io_point, hextract, fun val hval => (hextracts.fieldRight_iff hval).2 ?_⟩
    intro number hnumber _
    exact shownAs_of_fieldTable hincreasing htable hnumber

/-- Individual bits report every register right, whatever the undefined shifts give, exactly
where each string is at the position of its bit. -/
theorem individualRight_all_iff (hincreasing : Increasing 0 rawDataList) :
    (∀ undefined, ∃ io_point, extract_bitstrings undefined size rawDataList = some io_point ∧
        ∀ val < 2 ^ (size * 16), IndividualRight undefined rawDataList io_point val) ↔
      IndividualTable size (numbered 0 rawDataList) := by
  constructor
  · intro hright number string hmem
    obtain ⟨io_point, hextract, hall⟩ := hright fun _ => 2 ^ 64 - 1
    obtain ⟨extracted, hsame, hextracts⟩ :=
      extract_bitstrings_eq (fun _ => 2 ^ 64 - 1) size hincreasing
    rw [hextract] at hsame
    cases hsame
    have hstands : ∀ val < 2 ^ (size * 16), StandsAt (fun _ => 2 ^ 64 - 1)
        (numbered 0 rawDataList) val string (val.testBit number) := by
      intro val hval
      exact (hextracts.individualRight_iff val).1 (hall val hval) (number, string)
        ((mem_strings_iff number string).2 hmem)
    -- The register with only this bit, and the one with every bit, tell the position.
    by_cases hnumber : number < size * 16
    · obtain ⟨idx, hget, hunmarked, hstate⟩ :=
        hstands (2 ^ number) (Nat.pow_lt_pow_right (by norm_num) hnumber)
      refine ⟨idx, hget, fun hmark => hunmarked (marked_ones_of_mayMark hmark), ?_⟩
      rw [Nat.testBit_two_pow_self, Nat.testBit_two_pow, decide_eq_true_iff] at hstate
      rw [if_pos hnumber]
      exact hstate.symm
    · obtain ⟨idx, hget, hunmarked, hstate⟩ :=
        hstands (2 ^ (size * 16) - 1) (Nat.sub_lt (by positivity) (by norm_num))
      refine ⟨idx, hget, fun hmark => hunmarked (marked_ones_of_mayMark hmark), ?_⟩
      rw [Nat.testBit_two_pow_sub_one, Nat.testBit_two_pow_sub_one, decide_eq_decide] at hstate
      rw [if_neg hnumber]
      omega
  · intro htable undefined
    obtain ⟨io_point, hextract, hextracts⟩ := extract_bitstrings_eq undefined size hincreasing
    refine ⟨io_point, hextract, fun val hval => (hextracts.individualRight_iff val).2 ?_⟩
    rintro ⟨number, string⟩ hmem
    obtain ⟨idx, hget, hunmarked, hwhere⟩ :=
      htable number string ((mem_strings_iff number string).1 hmem)
    refine ⟨idx, hget, fun hmarked => hunmarked (mayMark_of_marked hmarked), ?_⟩
    split_ifs at hwhere with hnumber
    · rw [hwhere]
    · have hbeyond : ∀ bit, size * 16 ≤ bit → val.testBit bit = false := by
        intro bit hbit
        exact Nat.testBit_lt_two_pow (hval.trans_le (Nat.pow_le_pow_right (by norm_num) hbit))
      rw [hbeyond idx hwhere, hbeyond number (not_lt.1 hnumber)]

/-- The bits of every register are reported right, whatever the undefined shifts give, exactly
where the entries of the list are where the decoders look for them. -/
theorem bit_strings_right_iff (size : ℕ) (rawDataList : List BitString)
    (hincreasing : Increasing 0 rawDataList) :
    ((∀ undefined, ∃ io_point, extract_bitstrings undefined size rawDataList = some io_point ∧
        ∀ val < 2 ^ (size * 16), FieldRight undefined rawDataList io_point val) ↔
      FieldTable size (numbered 0 rawDataList)) ∧
    ((∀ undefined, ∃ io_point, extract_bitstrings undefined size rawDataList = some io_point ∧
        ∀ val < 2 ^ (size * 16), IndividualRight undefined rawDataList io_point val) ↔
      IndividualTable size (numbered 0 rawDataList)) :=
  ⟨fieldRight_all_iff hincreasing, individualRight_all_iff hincreasing⟩

theorem bit_strings_right_iff_three :
    (∀ undefined, ∃ io_point,
        extract_bitstrings undefined 1 [.text "door", .empty, .text "alarm"] = some io_point ∧
          ∀ val < 2 ^ 16,
            FieldRight undefined [.text "door", .empty, .text "alarm"] io_point val) ∧
      ∀ undefined, ∃ io_point,
        extract_bitstrings undefined 1 [.text "door", .empty, .text "alarm"] = some io_point ∧
          ∀ val < 2 ^ 16,
            IndividualRight undefined [.text "door", .empty, .text "alarm"] io_point val := by
  have hright := bit_strings_right_iff 1 [.text "door", .empty, .text "alarm"]
    ⟨by norm_num, by norm_num, by norm_num, trivial⟩
  have hfield : FieldTable 1 (numbered 0 [.text "door", .empty, .text "alarm"]) := by
    intro idx _ number string hget
    match idx with
    | 0 | 2 =>
      cases hget
      exact ⟨by decide, Or.inr ⟨rfl, by decide⟩⟩
    | 1 =>
      cases hget
      exact ⟨rfl, by decide⟩
    | idx + 3 => cases hget
  refine ⟨hright.1.2 hfield, hright.2.2 fun number string hmem => ?_⟩
  simp only [numbered, BitString.string, List.mem_cons, Prod.mk.injEq, Option.some.injEq,
    reduceCtorEq, and_false, List.not_mem_nil, or_false, false_or] at hmem
  rcases hmem with ⟨rfl, rfl⟩ | ⟨rfl, rfl⟩
  · exact ⟨0, rfl, by decide, by decide⟩
  · exact ⟨2, rfl, by decide, by decide⟩

/-- A bit that is skipped moves the next string to another bit. -/
theorem skipped_bit :
    ¬ ∀ (undefined : ℕ → ℕ) (size : ℕ) (rawDataList : List BitString),
      Increasing 0 rawDataList →
      ∃ io_point, extract_bitstrings undefined size rawDataList = some io_point ∧
        ∀ val < 2 ^ (size * 16), FieldRight undefined rawDataList io_point val ∧
          IndividualRight undefined rawDataList io_point val := by
  intro hall
  obtain ⟨io_point, hextract, hright⟩ := hall (fun _ => 0) 1
    [.object (some "alarm") (some 1)] ⟨by norm_num, by norm_num, trivial⟩
  cases hextract
  exact absurd (hright 2 (by norm_num)).1 (by unfold FieldRight; decide)

end HybridOs.GcomBitStrings
