import Mathlib

/-!
# Ordering controller addresses

Two controllers agree on who listens by comparing their addresses. An address with its port is
turned into one number: three digits for every field of the address and at least six for the
port, written one after another.
-/

namespace HybridOs.CopsAddress

/-! ## Decimal texts -/

/-- `strconv.ParseUint`, without its bound. -/
def digits (text : List Char) : Option ℕ :=
  if text ≠ [] ∧ text.all Char.isDigit then some (Nat.ofDigitChars 10 text 0) else none

/-- `strconv.Atoi` on a text without a sign. -/
def fieldNumber (text : List Char) : Option ℕ :=
  (digits text).filter (· < 2 ^ 63)

/-- A number of `fmt.Sprintf`, with zeros up to a width. -/
def padded (width n : ℕ) : List Char :=
  List.replicate (width - (Nat.toDigits 10 n).length) '0' ++ Nat.toDigits 10 n

/-- The value of digits in a row, the first moved up by the places of the second. -/
theorem ofDigitChars_concat (xs ys : List Char) :
    Nat.ofDigitChars 10 (xs ++ ys) 0 =
      Nat.ofDigitChars 10 xs 0 * 10 ^ ys.length + Nat.ofDigitChars 10 ys 0 := by
  rw [Nat.ofDigitChars_append, Nat.ofDigitChars_eq_ofDigitChars_zero, Nat.mul_comm]

/-- Leading zeros do not change the value. -/
theorem value_padded (width n : ℕ) : Nat.ofDigitChars 10 (padded width n) 0 = n := by
  rw [padded, ofDigitChars_concat, Nat.ofDigitChars_replicate_zero, Nat.mul_zero, Nat.zero_mul,
    Nat.zero_add, Nat.ofDigitChars_ten_toDigits]

/-- A padded number is at least as wide as asked for. -/
theorem padded_length (width n : ℕ) :
    (padded width n).length = max width (Nat.toDigits 10 n).length := by
  rw [padded, List.length_append, List.length_replicate]
  omega

variable {n : ℕ} {texts : List (List Char)} {address : List ℕ} {rest ip other : List Char}

/-- A padded number has digits only. -/
theorem padded_isDigit {width : ℕ} {c : Char} (h : c ∈ padded width n) : c.isDigit = true := by
  rw [padded, List.mem_append] at h
  cases h with
  | inl hzero =>
    rw [List.eq_of_mem_replicate hzero]
    rfl
  | inr hdigit => exact Nat.isDigit_of_mem_toDigits (by omega) (by omega) hdigit

/-- A number is below the power of its padded length. -/
theorem lt_padded (width n : ℕ) : n < 10 ^ (padded width n).length := by
  have hpositive : 0 < (Nat.toDigits 10 n).length := Nat.length_toDigits_pos
  have hown : n < 10 ^ (Nat.toDigits 10 n).length :=
    (Nat.length_toDigits_le_iff (by omega) hpositive).1 le_rfl
  have hwide : 10 ^ (Nat.toDigits 10 n).length ≤ 10 ^ (padded width n).length := by
    apply Nat.pow_le_pow_right (by omega)
    rw [padded_length]
    omega
  omega

/-! ## Addresses -/

/-- The fields of an IPv4 address. -/
structure IPv4 where
  fields : List ℕ
  length_fields : fields.length = 4
  le_fields : ∀ field ∈ fields, field ≤ 255

/-- An address in dotted form. -/
def IPv4.text (ip : IPv4) : List Char :=
  ['.'].intercalate (ip.fields.map (Nat.toDigits 10))

/-- A field of a dotted address has no leading zero. -/
def octet (text : List Char) : Option ℕ :=
  if 1 < text.length ∧ text.head? = some '0' then none
  else (digits text).filter (· ≤ 255)

/-- The dotted part of `net.ParseIP`. -/
def parseIPv4 (text : List Char) : Option (List ℕ) :=
  if (text.splitOn '.').length = 4 then (text.splitOn '.').mapM octet else none

/-- What the code takes from the standard library. -/
structure Lib where
  /-- `unicode.IsNumber`. -/
  isNumber : Char → Bool
  /-- `net.ParseIP`, on a text with a colon before any dot. -/
  parseIPv6 : List Char → Bool

/-- Of the ASCII characters the digits are numbers. -/
def Lib.Ascii (lib : Lib) : Prop :=
  ∀ c : Char, c.toNat < 128 → lib.isNumber c = c.isDigit

/-- `net.ParseIP`, as far as it is `nil` or not. -/
def Lib.parseIP (lib : Lib) (text : List Char) : Bool :=
  match text.find? (fun c => c = '.' ∨ c = ':' ∨ c = '%') with
  | some '.' => (parseIPv4 text).isSome
  | some ':' => lib.parseIPv6 text
  | _ => false

/-- Why two addresses are not compared. -/
inductive AddressError where
  /-- The port formatting is invalid. -/
  | portFormat
  /-- The IP address formatting is invalid. -/
  | addressFormat
  /-- A field is no number. -/
  | field
  /-- A sixth field is written out of the array's range. -/
  | panic
  /-- The number does not fit. -/
  | number
  /-- The IP addresses are identical. -/
  | identical
  deriving DecidableEq

/-- `checkIPAddrFormat`. -/
def Lib.checkIPAddrFormat (lib : Lib) (ip : List Char) : Except AddressError Unit :=
  if ip.count ':' ≠ 1 then .error .portFormat
  else if lib.parseIP (ip.takeWhile (· ≠ ':')) = false then .error .addressFormat
  else .ok ()

/-- `strings.FieldsFunc`. -/
def fieldsFunc (separates : Char → Bool) (text : List Char) : List (List Char) :=
  (text.splitOnP separates).filter (· ≠ [])

/-- The loop of `splitIPAddr`, from the fragment with index `i`. -/
def splitFrom : ℕ → List (List Char) → List ℕ → Except AddressError (List ℕ)
  | _, [], ipFrags => .ok ipFrags
  | i, ipFragStr :: rest, ipFrags =>
    match fieldNumber ipFragStr with
    | none => .error .field
    | some ipFrag =>
      if i < 5 then splitFrom (i + 1) rest (ipFrags.set i ipFrag) else .error .panic

/-- `splitIPAddr`. -/
def Lib.splitIPAddr (lib : Lib) (ip : List Char) : Except AddressError (List ℕ) :=
  splitFrom 0 (fieldsFunc (fun c => !lib.isNumber c) ip) [0, 0, 0, 0, 0]

/-- The text that `numberfyIP` makes of the fragments. -/
def concatenated (ipFrags : List ℕ) : List Char :=
  padded 3 (ipFrags.getD 0 0) ++ padded 3 (ipFrags.getD 1 0) ++ padded 3 (ipFrags.getD 2 0) ++
    padded 3 (ipFrags.getD 3 0) ++ padded 6 (ipFrags.getD 4 0)

/-- `numberfyIP`. -/
def Lib.numberfyIP (lib : Lib) (ip : List Char) : Except AddressError ℕ := do
  lib.checkIPAddrFormat ip
  let ipFrags ← lib.splitIPAddr ip
  match (digits (concatenated ipFrags)).filter (· < 2 ^ 64) with
  | none => .error .number
  | some number => .ok number

/-- `isIPLessThan`. -/
def Lib.isIPLessThan (lib : Lib) (thisCtrlrIP otherCtrlrIP : List Char) :
    Except AddressError Bool := do
  let ip1 ← lib.numberfyIP thisCtrlrIP
  let ip2 ← lib.numberfyIP otherCtrlrIP
  if ip1 = ip2 then .error .identical else .ok (decide (ip1 < ip2))

/-! ## The fields of an address with its port -/

/-- The address before the colon. -/
def addressOf (ip : List Char) : List ℕ := (parseIPv4 (ip.takeWhile (· ≠ ':'))).getD []

/-- The number behind the colon; none is zero. -/
def Lib.portOf (lib : Lib) (ip : List Char) : ℕ :=
  let port := fieldsFunc (fun c => !lib.isNumber c) ((ip.dropWhile (· ≠ ':')).drop 1)
  (port.head?.bind fieldNumber).getD 0

/-- The number of an address. -/
def addressNumber (address : List ℕ) : ℕ :=
  address.foldl (fun number field => number * 1000 + field) 0

/-- The digits that a port takes. -/
def portWidth (port : ℕ) : ℕ := max 6 (Nat.toDigits 10 port).length

/-- The padded octets and the port read as one number. -/
theorem concatenated_value {a b c d port : ℕ} (ha : a ≤ 255) (hb : b ≤ 255) (hc : c ≤ 255)
    (hd : d ≤ 255) :
    digits (concatenated [a, b, c, d, port]) =
      some (addressNumber [a, b, c, d] * 10 ^ portWidth port + port) := by
  have hthree (field : ℕ) (h : field ≤ 255) : (padded 3 field).length = 3 := by
    have hlength : (Nat.toDigits 10 field).length ≤ 3 :=
      (Nat.length_toDigits_le_iff (by omega) (by omega)).2 (by omega)
    rw [padded_length]
    omega
  have hwidth : (padded 6 port).length = portWidth port := padded_length 6 port
  have hne : concatenated [a, b, c, d, port] ≠ [] := by
    intro hnil
    have hlength := congrArg List.length hnil
    simp only [concatenated, List.length_append, List.getD_cons_zero, List.length_nil,
      hthree a ha] at hlength
    omega
  have hdigits : (concatenated [a, b, c, d, port]).all Char.isDigit = true := by
    rw [List.all_eq_true]
    intro x hx
    simp only [concatenated, List.mem_append] at hx
    rcases hx with (((hx | hx) | hx) | hx) | hx <;> exact padded_isDigit hx
  rw [digits, if_pos ⟨hne, hdigits⟩]
  simp only [concatenated, ofDigitChars_concat, value_padded, List.getD_cons_zero,
    List.getD_cons_succ, hthree b hb, hthree c hc, hthree d hd, hwidth, addressNumber]
  norm_num

/-! ## What the parser accepts -/

variable {text : List Char}

/-- What has a value as digits is a text of digits. -/
theorem digits_eq_some (h : digits text = some n) : text ≠ [] ∧ text.all Char.isDigit = true := by
  rw [digits] at h
  split_ifs at h with hdigits
  exact hdigits

/-- An octet is a number up to 255. -/
theorem octet_eq_some (h : octet text = some n) : digits text = some n ∧ n ≤ 255 := by
  rw [octet] at h
  split_ifs at h
  rw [Option.filter_eq_some_iff] at h
  exact ⟨h.1, of_decide_eq_true h.2⟩

/-- An octet is read as the number it is. -/
theorem fieldNumber_of_octet (h : octet text = some n) : fieldNumber text = some n := by
  have hoctet := octet_eq_some h
  rw [fieldNumber, Option.filter_eq_some_iff]
  exact ⟨hoctet.1, decide_eq_true (by omega)⟩

/-- Four fields of a dotted address with their numbers. -/
structure Octets (texts : List (List Char)) (address : List ℕ) : Prop where
  length_texts : texts.length = 4
  octets : texts.mapM octet = some address

/-- The four fields one by one. -/
theorem Octets.fields (h : Octets texts address) :
    ∃ ta tb tc td a b c d, texts = [ta, tb, tc, td] ∧ address = [a, b, c, d] ∧
      octet ta = some a ∧ octet tb = some b ∧ octet tc = some c ∧ octet td = some d := by
  have hlength := h.length_texts
  have hoctets := h.octets
  rcases texts with _ | ⟨ta, _ | ⟨tb, _ | ⟨tc, _ | ⟨td, _ | ⟨te, texts⟩⟩⟩⟩⟩
  case cons.cons.cons.cons.nil =>
    simp only [List.mapM_cons, List.mapM_nil, Option.bind_eq_bind, Option.bind_eq_some_iff,
      Option.pure_def, Option.some.injEq] at hoctets
    obtain ⟨a, ha, _, ⟨b, hb, _, ⟨c, hc, _, ⟨d, hd, _, rfl, rfl⟩, rfl⟩, rfl⟩, rfl⟩ := hoctets
    exact ⟨ta, tb, tc, td, a, b, c, d, rfl, rfl, ha, hb, hc, hd⟩
  all_goals
    simp only [List.length_cons, List.length_nil] at hlength
    omega

/-- Each octet is a text of digits. -/
theorem Octets.digits (h : Octets texts address) (htext : text ∈ texts) :
    text ≠ [] ∧ text.all Char.isDigit = true := by
  obtain ⟨ta, tb, tc, td, a, b, c, d, rfl, -, ha, hb, hc, hd⟩ := h.fields
  simp only [List.mem_cons, List.not_mem_nil, or_false] at htext
  rcases htext with rfl | rfl | rfl | rfl
  · exact digits_eq_some (octet_eq_some ha).1
  · exact digits_eq_some (octet_eq_some hb).1
  · exact digits_eq_some (octet_eq_some hc).1
  · exact digits_eq_some (octet_eq_some hd).1

/-- An address parses exactly if it is four octets between dots. -/
theorem parseIPv4_iff :
    parseIPv4 text = some address ↔
      ∃ texts, Octets texts address ∧ text = ['.'].intercalate texts := by
  constructor
  · intro h
    rw [parseIPv4] at h
    split_ifs at h with hlength
    exact ⟨text.splitOn '.', ⟨hlength, h⟩, (List.intercalate_splitOn '.').symm⟩
  · rintro ⟨texts, hoctets, rfl⟩
    have hdot : ∀ text ∈ texts, '.' ∉ text := by
      intro text htext hmem
      have hdigit := List.all_eq_true.1 (hoctets.digits htext).2 '.' hmem
      contradiction
    have hne : texts ≠ [] := by
      intro hnil
      have hlength := hoctets.length_texts
      rw [hnil] at hlength
      contradiction
    rw [parseIPv4, List.splitOn_intercalate '.' hdot hne, if_pos hoctets.length_texts]
    exact hoctets.octets

/-- An address with its port: four fields, a colon and what follows it. -/
structure Spelled (ip : List Char) (texts : List (List Char)) (address : List ℕ)
    (rest : List Char) : Prop where
  octets : Octets texts address
  text : ip = ['.'].intercalate texts ++ ':' :: rest

/-- No octets hold a colon. -/
theorem colon_notMem (h : Octets texts address) : ':' ∉ ['.'].intercalate texts := by
  obtain ⟨ta, tb, tc, td, a, b, c, d, rfl, -⟩ := h.fields
  have hcolon (text : List Char) (htext : text ∈ [ta, tb, tc, td]) : ':' ∉ text := by
    intro hmem
    have hdigit := List.all_eq_true.1 (h.digits htext).2 ':' hmem
    contradiction
  simp [hcolon]

/-- What stands before the first colon. -/
theorem takeWhile_colon {before : List Char} (h : ':' ∉ before) :
    (before ++ ':' :: rest).takeWhile (· ≠ ':') = before := by
  rw [List.takeWhile_append_of_pos]
  · simp
  · intro c hc
    simp only [decide_not, Bool.not_eq_eq_eq_not, Bool.not_true, decide_eq_false_iff_not]
    rintro rfl
    exact h hc

/-- What stands from the first colon on. -/
theorem dropWhile_colon {before : List Char} (h : ':' ∉ before) :
    (before ++ ':' :: rest).dropWhile (· ≠ ':') = ':' :: rest := by
  rw [List.dropWhile_append_of_pos]
  · simp
  · intro c hc
    simp only [decide_not, Bool.not_eq_eq_eq_not, Bool.not_true, decide_eq_false_iff_not]
    rintro rfl
    exact h hc

variable {lib : Lib}

/-- Without a colon only the form with dots parses. -/
theorem parseIP_iff (h : ':' ∉ text) : lib.parseIP text = true ↔ (parseIPv4 text).isSome := by
  constructor
  · intro hparse
    rw [Lib.parseIP] at hparse
    split at hparse
    · exact hparse
    · next hfind => exact absurd (List.mem_of_find?_eq_some hfind) h
    · contradiction
  · intro hsome
    obtain ⟨address, haddress⟩ := Option.isSome_iff_exists.1 hsome
    obtain ⟨texts, hoctets, rfl⟩ := parseIPv4_iff.1 haddress
    obtain ⟨ta, tb, tc, td, a, b, c, d, rfl, -⟩ := hoctets.fields
    have hdigits := (hoctets.digits (List.mem_cons_self)).2
    have hfind : (['.'].intercalate [ta, tb, tc, td]).find?
        (fun c => c = '.' ∨ c = ':' ∨ c = '%') = some '.' := by
      have htext : ['.'].intercalate [ta, tb, tc, td] =
          ta ++ '.' :: (['.'].intercalate [tb, tc, td]) := by
        simp
      rw [htext, List.find?_append, List.find?_eq_none.2]
      · rfl
      · intro c hc
        have hdigit := List.all_eq_true.1 hdigits c hc
        simp only [decide_eq_true_eq]
        rintro (rfl | rfl | rfl) <;> contradiction
    rw [Lib.parseIP, hfind]
    exact hsome

/-- The format is accepted exactly for octets followed by one colon. -/
theorem checkIPAddrFormat_iff :
    lib.checkIPAddrFormat ip = .ok () ↔
      ∃ texts address rest, Spelled ip texts address rest ∧ ':' ∉ rest := by
  constructor
  · intro h
    rw [Lib.checkIPAddrFormat] at h
    split_ifs at h with hcount hparse
    have hmem : ':' ∈ ip := by
      rw [← List.count_pos_iff]
      omega
    obtain ⟨before, rest, rfl, hbefore⟩ := List.eq_append_cons_of_mem hmem
    rw [takeWhile_colon hbefore, Bool.not_eq_false, parseIP_iff hbefore] at hparse
    obtain ⟨address, haddress⟩ := Option.isSome_iff_exists.1 hparse
    obtain ⟨texts, hoctets, rfl⟩ := parseIPv4_iff.1 haddress
    have hrest : ':' ∉ rest := by
      rw [List.count_append, List.count_cons_self, List.count_eq_zero_of_not_mem hbefore]
        at hcount
      rw [← List.count_eq_zero]
      omega
    exact ⟨texts, address, rest, ⟨hoctets, rfl⟩, hrest⟩
  · rintro ⟨texts, address, rest, ⟨hoctets, rfl⟩, hrest⟩
    have hbefore := colon_notMem hoctets
    have hcount : (['.'].intercalate texts ++ ':' :: rest).count ':' = 1 := by
      rw [List.count_append, List.count_cons_self, List.count_eq_zero_of_not_mem hbefore,
        List.count_eq_zero_of_not_mem hrest]
    have hparse : lib.parseIP ((['.'].intercalate texts ++ ':' :: rest).takeWhile (· ≠ ':')) =
        true := by
      rw [takeWhile_colon hbefore, parseIP_iff hbefore, parseIPv4_iff.2 ⟨texts, hoctets, rfl⟩]
      rfl
    rw [Lib.checkIPAddrFormat, if_neg (by omega), hparse]
    rfl

/-- The spelling of an address gives the address. -/
theorem Spelled.addressOf (h : Spelled ip texts address rest) : addressOf ip = address := by
  rw [CopsAddress.addressOf, h.text, takeWhile_colon (colon_notMem h.octets),
    parseIPv4_iff.2 ⟨texts, h.octets, rfl⟩, Option.getD_some]

/-- Its port is the first number after the address. -/
theorem Spelled.portOf (h : Spelled ip texts address rest) :
    lib.portOf ip =
      ((fieldsFunc (fun c => !lib.isNumber c) rest).head?.bind fieldNumber).getD 0 := by
  rw [Lib.portOf, h.text, dropWhile_colon (colon_notMem h.octets), List.drop_one, List.tail_cons]

/-- The first field ends at the first separator. -/
theorem fieldsFunc_first {separates : Char → Bool} {field : List Char} {separator : Char}
    (hne : field ≠ []) (hfield : ∀ c ∈ field, separates c = false)
    (hseparator : separates separator = true) :
    fieldsFunc separates (field ++ separator :: rest) = field :: fieldsFunc separates rest := by
  rw [fieldsFunc, List.splitOnP_append_cons_of_forall_mem hfield separator hseparator, List.filter_cons,
    if_pos (decide_eq_true hne), fieldsFunc]

/-- The fragments of an address are its fields and then what its port holds. -/
theorem fieldsFunc_spelled (hascii : lib.Ascii) (h : Spelled ip texts address rest) :
    fieldsFunc (fun c => !lib.isNumber c) ip =
      texts ++ fieldsFunc (fun c => !lib.isNumber c) rest := by
  have hnumber {text : List Char} (htext : text ∈ texts) :
      ∀ c ∈ text, (!lib.isNumber c) = false := by
    intro c hc
    have hdigit := List.all_eq_true.1 (h.octets.digits htext).2 c hc
    have hsmall : c.toNat < 128 := by
      have hbounds := (Char.isDigit_iff_toNat.1 hdigit).2
      have hnine : '9'.toNat = 57 := rfl
      omega
    rw [hascii c hsmall, hdigit]
    rfl
  have hdot : (!lib.isNumber '.') = true := by
    rw [hascii '.' (by decide)]
    rfl
  have hcolon : (!lib.isNumber ':') = true := by
    rw [hascii ':' (by decide)]
    rfl
  have hne {text : List Char} (htext : text ∈ texts) : text ≠ [] :=
    (h.octets.digits htext).1
  obtain ⟨ta, tb, tc, td, a, b, c, d, rfl, -⟩ := h.octets.fields
  have htext : ip = ta ++ '.' :: (tb ++ '.' :: (tc ++ '.' :: (td ++ ':' :: rest))) := by
    rw [h.text]
    simp
  rw [htext, fieldsFunc_first (hne (by simp)) (hnumber (by simp)) hdot,
    fieldsFunc_first (hne (by simp)) (hnumber (by simp)) hdot,
    fieldsFunc_first (hne (by simp)) (hnumber (by simp)) hdot,
    fieldsFunc_first (hne (by simp)) (hnumber (by simp)) hcolon]
  rfl

/-- The loop has put down the four fields of the address when it comes to the port. -/
theorem splitIPAddr_spelled (hascii : lib.Ascii) (h : Spelled ip texts address rest) :
    lib.splitIPAddr ip =
      splitFrom 4 (fieldsFunc (fun c => !lib.isNumber c) rest) (address ++ [0]) := by
  rw [Lib.splitIPAddr, fieldsFunc_spelled hascii h]
  obtain ⟨ta, tb, tc, td, a, b, c, d, rfl, rfl, ha, hb, hc, hd⟩ := h.octets.fields
  simp only [List.cons_append, splitFrom, fieldNumber_of_octet ha,
    fieldNumber_of_octet hb, fieldNumber_of_octet hc, fieldNumber_of_octet hd]
  simp

/-- The fifth fragment is the port. -/
theorem splitFrom_port {fields : List (List Char)} {ipFrags : List ℕ} (hlength : address.length = 4)
    (h : splitFrom 4 fields (address ++ [0]) = .ok ipFrags) :
    ipFrags = address ++ [(fields.head?.bind fieldNumber).getD 0] := by
  cases fields with
  | nil =>
    rw [splitFrom, Except.ok.injEq] at h
    exact h.symm
  | cons field fields =>
    rw [splitFrom] at h
    cases hfield : fieldNumber field with
    | none =>
      rw [hfield] at h
      contradiction
    | some port =>
      rw [hfield] at h
      dsimp only at h
      rw [if_pos (by omega)] at h
      cases fields with
      | nil =>
        rw [splitFrom, Except.ok.injEq] at h
        rw [← h, List.set_append_right _ _ (by omega), hlength]
        simp [hfield]
      | cons second fields =>
        -- a second number behind the colon is written out of range
        rw [splitFrom] at h
        cases hsecond : fieldNumber second with
        | none | some _ =>
          rw [hsecond] at h
          contradiction

/-- The number of a text that is accepted is written in its address and its port. -/
theorem numberfyIP_ok (hascii : lib.Ascii) {number : ℕ} (h : lib.numberfyIP ip = .ok number) :
    (addressOf ip).length = 4 ∧ (∀ field ∈ addressOf ip, field ≤ 255) ∧
      number = addressNumber (addressOf ip) * 10 ^ portWidth (lib.portOf ip) + lib.portOf ip := by
  rw [Lib.numberfyIP] at h
  cases hformat : lib.checkIPAddrFormat ip with
  | error e =>
    rw [hformat] at h
    contradiction
  | ok done =>
    obtain ⟨texts, address, rest, hspelled, -⟩ := checkIPAddrFormat_iff.1 hformat
    rw [hformat, splitIPAddr_spelled hascii hspelled] at h
    have hport : lib.portOf ip = _ := hspelled.portOf
    rw [hspelled.addressOf, hport]
    obtain ⟨ta, tb, tc, td, a, b, c, d, rfl, rfl, ha, hb, hc, hd⟩ := hspelled.octets.fields
    cases hsplit : splitFrom 4 (fieldsFunc (fun c => !lib.isNumber c) rest)
        ([a, b, c, d] ++ [0]) with
    | error e =>
      rw [hsplit] at h
      contradiction
    | ok ipFrags =>
      have hfrags := splitFrom_port rfl hsplit
      rw [hsplit] at h
      have ha' := (octet_eq_some ha).2
      have hb' := (octet_eq_some hb).2
      have hc' := (octet_eq_some hc).2
      have hd' := (octet_eq_some hd).2
      constructor
      · rfl
      constructor
      · simp [ha', hb', hc', hd']
      · rw [hfrags] at h
        simp only [bind, Except.bind, List.cons_append, List.nil_append,
          concatenated_value ha' hb' hc' hd'] at h
        split at h
        · contradiction
        · next hnumber =>
          rw [Option.filter_eq_some_iff, Option.some.injEq] at hnumber
          rw [Except.ok.injEq] at h
          rw [← h, ← hnumber.1]

/-! ## The order -/

/-- The parser accepts a text. -/
def Lib.Accepts (lib : Lib) (ip : List Char) : Prop := ∃ number, lib.numberfyIP ip = .ok number

/-- The first address is less. -/
def Lib.Less (lib : Lib) (ip other : List Char) : Prop := lib.isIPLessThan ip other = .ok true

/-- Two addresses with their ports run into each other: they are the same, or the ports take
different numbers of digits and the digits of address and port make up the same number. -/
def Lib.Collide (lib : Lib) (ip other : List Char) : Prop :=
  (addressOf ip = addressOf other ∧ lib.portOf ip = lib.portOf other) ∨
    (portWidth (lib.portOf ip) ≠ portWidth (lib.portOf other) ∧
      addressNumber (addressOf ip) * 10 ^ portWidth (lib.portOf ip) + lib.portOf ip =
        addressNumber (addressOf other) * 10 ^ portWidth (lib.portOf other) + lib.portOf other)

/-- Two addresses with numbers are compared by these. -/
theorem isIPLessThan_of_ok {number number' : ℕ} (h : lib.numberfyIP ip = .ok number)
    (h' : lib.numberfyIP other = .ok number') :
    lib.isIPLessThan ip other =
      if number = number' then .error .identical else .ok (decide (number < number')) := by
  rw [Lib.isIPLessThan, h, h']
  rfl

/-- An address is less than another if its number is. -/
theorem less_iff :
    lib.Less ip other ↔ ∃ number number', lib.numberfyIP ip = .ok number ∧
      lib.numberfyIP other = .ok number' ∧ number < number' := by
  constructor
  · intro h
    rw [Lib.Less, Lib.isIPLessThan] at h
    cases hip : lib.numberfyIP ip with
    | error e =>
      rw [hip] at h
      contradiction
    | ok number =>
      cases hother : lib.numberfyIP other with
      | error e =>
        rw [hip, hother] at h
        contradiction
      | ok number' =>
        rw [hip, hother] at h
        simp only [bind, Except.bind] at h
        split_ifs at h
        rw [Except.ok.injEq, decide_eq_true_eq] at h
        exact ⟨number, number', rfl, rfl, h⟩
  · rintro ⟨number, number', h, h', hlt⟩
    rw [Lib.Less, isIPLessThan_of_ok h h', if_neg (by omega), decide_eq_true hlt]

/-- No address is less than itself. -/
theorem less_irrefl (ip : List Char) : ¬ lib.Less ip ip := by
  intro h
  obtain ⟨number, number', hnumber, hnumber', hlt⟩ := less_iff.1 h
  rw [hnumber, Except.ok.injEq] at hnumber'
  omega

/-- The order of addresses is transitive. -/
theorem less_trans {third : List Char} (h : lib.Less ip other) (h' : lib.Less other third) :
    lib.Less ip third := by
  obtain ⟨number, middle, hnumber, hmiddle, hlt⟩ := less_iff.1 h
  obtain ⟨middle', number', hmiddle', hnumber', hlt'⟩ := less_iff.1 h'
  rw [hmiddle, Except.ok.injEq] at hmiddle'
  exact less_iff.2 ⟨number, number', hnumber, hnumber', by omega⟩

/-- Four fields below a thousand are read off their number. -/
theorem addressNumber_inj {other : List ℕ} (hlength : address.length = 4)
    (hlength' : other.length = 4) (hfields : ∀ field ∈ address, field ≤ 255)
    (hfields' : ∀ field ∈ other, field ≤ 255) (h : addressNumber address = addressNumber other) :
    address = other := by
  rcases address with _ | ⟨a, _ | ⟨b, _ | ⟨c, _ | ⟨d, _ | ⟨e, address⟩⟩⟩⟩⟩ <;>
    simp only [List.length_cons, List.length_nil] at hlength <;> try omega
  rcases other with _ | ⟨a', _ | ⟨b', _ | ⟨c', _ | ⟨d', _ | ⟨e', other⟩⟩⟩⟩⟩ <;>
    simp only [List.length_cons, List.length_nil] at hlength' <;> try omega
  simp only [List.mem_cons, forall_eq_or_imp] at hfields hfields'
  simp only [addressNumber, List.foldl_cons, List.foldl_nil] at h
  have ha : a = a' := by omega
  have hb : b = b' := by omega
  have hc : c = c' := by omega
  have hd : d = d' := by omega
  rw [ha, hb, hc, hd]

/-- Two accepted texts are compared exactly where they do not run into each other. -/
theorem compared_iff (hascii : lib.Ascii) (h : lib.Accepts ip) (h' : lib.Accepts other) :
    lib.Less ip other ∨ lib.Less other ip ↔ ¬ lib.Collide ip other := by
  obtain ⟨number, hnumber⟩ := h
  obtain ⟨number', hnumber'⟩ := h'
  obtain ⟨hlength, hfields, hvalue⟩ := numberfyIP_ok hascii hnumber
  obtain ⟨hlength', hfields', hvalue'⟩ := numberfyIP_ok hascii hnumber'
  have hcompared : lib.Less ip other ∨ lib.Less other ip ↔ number ≠ number' := by
    rw [Lib.Less, Lib.Less, isIPLessThan_of_ok hnumber hnumber',
      isIPLessThan_of_ok hnumber' hnumber]
    split_ifs with heq heq' heq' <;> simp <;> omega
  have hcollide : lib.Collide ip other ↔ number = number' := by
    constructor
    · intro hcollide
      rw [hvalue, hvalue']
      cases hcollide with
      | inl hsame => rw [hsame.1, hsame.2]
      | inr hshifted => exact hshifted.2
    · intro heq
      rw [hvalue, hvalue'] at heq
      by_cases hwidth : portWidth (lib.portOf ip) = portWidth (lib.portOf other)
      · left
        have hport := lt_padded 6 (lib.portOf ip)
        have hport' := lt_padded 6 (lib.portOf other)
        rw [padded_length, ← portWidth] at hport hport'
        rw [hwidth] at heq hport
        have hports : lib.portOf ip = lib.portOf other := by
          have hmod := congrArg (· % 10 ^ portWidth (lib.portOf other)) heq
          simpa [Nat.mod_eq_of_lt hport, Nat.mod_eq_of_lt hport'] using hmod
        have haddresses : addressNumber (addressOf ip) = addressNumber (addressOf other) := by
          rw [hports] at heq
          exact Nat.eq_of_mul_eq_mul_right (Nat.pow_pos (by omega)) (Nat.add_right_cancel heq)
        exact ⟨addressNumber_inj hlength hlength' hfields hfields' haddresses, hports⟩
      · exact Or.inr ⟨hwidth, heq⟩
  rw [hcompared, hcollide]

end HybridOs.CopsAddress
