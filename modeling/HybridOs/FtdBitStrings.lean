import HybridOs.GoValue
import Mathlib.Data.List.Basic
import Mathlib.Data.Nat.Bitwise

/-!
# Bit strings of a message

A field of a message lists the numbers of the bits that are set, and every bit that is
configured for it becomes a field of its own. These fields are right exactly where the listed
numbers survive the reduction to the positions of 64 bits, and no field is written over another.
-/

namespace HybridOs.FtdBitStrings

open GoValue

/-- The configuration of a bit string. -/
structure BitStringField where
  FieldName : String
  BitStrings : List String

/-- The body of a message. -/
abbrev MsgBody := String → Option GoValue

/-- The numbers under a key in the elements of an array; elements without one are passed over. -/
def listed (key : String) (elems : List GoValue) : List UInt64 :=
  elems.filterMap fun elem =>
    match elem with
    | .map entries =>
      match entries.lookup key with
      | some (.float64 value) => some value
      | _ => none
    | _ => none

/-- The numbers that a field lists, in each of its three forms. -/
def fieldValues : GoValue → Option (List UInt64)
  | .slice elems => some (listed "value" elems)
  | .float64 _ => some []
  | .map entries =>
    match entries.lookup "options" with
    | some (.slice elems) => some (listed "return_value" elems)
    | _ => none
  | _ => none

/-- The shift of a number. -/
def shiftOf (value : UInt64) : ℤ := (floatToInt value).tmod 64

/-- One number is marked; a negative shift panics. -/
def mark (bits value : UInt64) : Option UInt64 :=
  if shiftOf value < 0 then none
  else some (bits ||| UInt64.ofNat (2 ^ (shiftOf value).toNat))

/-- The field of a bit. -/
def BitStringField.key (cfg : BitStringField) (bitString : String) : String :=
  cfg.FieldName ++ "__" ++ bitString

/-- A flag as a `float64`. -/
def flag (set : Prop) [Decidable set] : GoValue := .float64 (floatOfNat (if set then 1 else 0))

/-- The fields of the bits are inserted. -/
def insertBits (cfg : BitStringField) (bits : UInt64) (body : MsgBody) : MsgBody :=
  cfg.BitStrings.zipIdx.foldl
    (fun body entry => Function.update body (cfg.key entry.1)
      (some (flag (bits &&& UInt64.ofNat (2 ^ entry.2) ≠ 0)))) body

/-- One bit string of the body. -/
def insertField (body : MsgBody) (cfg : BitStringField) : Option MsgBody :=
  match (body cfg.FieldName).bind fieldValues with
  | none => some body
  | some values => (values.foldlM mark 0).map fun bits => insertBits cfg bits body

/-- `insertBitStringBitFields`: the body after it, or none where it panics. -/
def insertBitStringBitFields (body : MsgBody) (cfgs : List BitStringField) : Option MsgBody :=
  cfgs.foldlM insertField body

/-! ## One field -/

/-- The bits that are marked are the shifts of the numbers. -/
theorem foldlM_mark (values : List UInt64) (before : UInt64) :
    ((∀ value ∈ values, 0 ≤ shiftOf value) ∧
      ∃ bits, values.foldlM mark before = some bits ∧ ∀ i, bits.toNat.testBit i ↔
        before.toNat.testBit i ∨ ∃ value ∈ values, shiftOf value = i) ∨
    ((∃ value ∈ values, shiftOf value < 0) ∧ values.foldlM mark before = none) := by
  induction values generalizing before with
  | nil => exact Or.inl ⟨by simp, before, rfl, by simp⟩
  | cons value values ih =>
    by_cases hneg : shiftOf value < 0
    · refine Or.inr ⟨⟨value, List.mem_cons_self, hneg⟩, ?_⟩
      rw [List.foldlM_cons, mark, if_pos hneg]
      rfl
    · have hpos : 0 ≤ shiftOf value := by omega
      have hlt : shiftOf value < 64 := Int.tmod_lt_of_pos _ (by decide)
      have hstep : (value :: values).foldlM mark before =
          values.foldlM mark (before ||| UInt64.ofNat (2 ^ (shiftOf value).toNat)) := by
        rw [List.foldlM_cons, mark, if_neg hneg]
        rfl
      have hpow : 2 ^ (shiftOf value).toNat < 2 ^ 64 := by
        apply Nat.pow_lt_pow_right <;> omega
      rw [hstep]
      rcases ih (before ||| UInt64.ofNat (2 ^ (shiftOf value).toNat)) with
        ⟨hall, bits, hbits, htest⟩ | ⟨⟨other, hmem, hother⟩, hnone⟩
      · refine Or.inl ⟨?_, bits, hbits, ?_⟩
        · simpa [hpos] using hall
        · intro i
          rw [htest, UInt64.toNat_or, Nat.testBit_or, UInt64.toNat_ofNat', Nat.mod_eq_of_lt hpow,
            Nat.testBit_two_pow]
          have hi : (shiftOf value).toNat = i ↔ shiftOf value = i := by omega
          simp [hi, or_assoc]
      · exact Or.inr ⟨⟨other, List.mem_cons_of_mem _ hmem, hother⟩, hnone⟩

/-- A bit that is read back. -/
theorem and_two_pow_ne_zero (bits : UInt64) (i : ℕ) :
    bits &&& UInt64.ofNat (2 ^ i) ≠ 0 ↔ bits.toNat.testBit i := by
  rw [Ne, ← UInt64.toNat_inj, UInt64.toNat_and, UInt64.toNat_ofNat', UInt64.toNat_zero]
  by_cases hi : i < 64
  · rw [Nat.mod_eq_of_lt (Nat.pow_lt_pow_right (by decide) hi), Nat.and_two_pow]
    cases bits.toNat.testBit i <;> simp
  · have hdvd : (2 : ℕ) ^ 64 ∣ 2 ^ i := Nat.pow_dvd_pow 2 (by omega)
    have hlt : bits.toNat < 2 ^ i :=
      lt_of_lt_of_le bits.toNat_lt (Nat.pow_le_pow_right (by decide) (by omega))
    rw [Nat.mod_eq_zero_of_dvd hdvd, Nat.and_zero, Nat.testBit_lt_two_pow hlt]
    simp

/-! ## All fields -/

/-- The numbers that the body lists for a configured field. -/
def Lists (body : MsgBody) (cfg : BitStringField) (values : List UInt64) : Prop :=
  (body cfg.FieldName).bind fieldValues = some values

/-- The call does not panic, changes no field of the body, and sets every bit that is configured
for a field of the body to whether the field lists its number. -/
def Inserts (body : MsgBody) (cfgs : List BitStringField) : Prop :=
  ∃ after, insertBitStringBitFields body cfgs = some after ∧
    (∀ k v, body k = some v → after k = some v) ∧
    ∀ cfg ∈ cfgs, ∀ values, Lists body cfg values → ∀ (i : ℕ) (name : String),
      cfg.BitStrings[i]? = some name → after (cfg.key name) =
        some (flag (∃ value ∈ values, floatEq value (floatOfNat i) = true))

/-- A bit that is inserted: its key, the numbers that its field lists, and its position. -/
structure Bit where
  /-- The field of the bit in the body. -/
  key : String
  /-- The numbers that the configured field lists. -/
  values : List UInt64
  /-- The position of the bit in the configured list. -/
  position : ℕ

/-- A bit is set where the integer part of a number leaves its position by 64. -/
def Bit.IsSet (bit : Bit) : Prop := ∃ value ∈ bit.values, shiftOf value = bit.position

instance (bit : Bit) : Decidable bit.IsSet :=
  inferInstanceAs (Decidable (∃ value ∈ bit.values, _))

/-- The bits of a configured field that lists the numbers. -/
def BitStringField.bits (cfg : BitStringField) (values : List UInt64) : List Bit :=
  cfg.BitStrings.zipIdx.map fun entry => ⟨cfg.key entry.1, values, entry.2⟩

/-- The numbers that a configured field lists after some bits were inserted: none where one of
the bits has its name, and else those of the body. -/
def valuesAfter (body : MsgBody) (bits : List Bit) (cfg : BitStringField) :
    Option (List UInt64) :=
  if bits.any (·.key = cfg.FieldName) then some [] else (body cfg.FieldName).bind fieldValues

/-- The bits that configured fields add to others. -/
def bitsFrom (body : MsgBody) : List Bit → List BitStringField → List Bit
  | bits, [] => bits
  | bits, cfg :: rest =>
    bitsFrom body (bits ++ ((valuesAfter body bits cfg).map cfg.bits).getD []) rest

/-- The bit that a key stands for, the last one that has it. -/
def lastBit (bits : List Bit) (k : String) : Option Bit := bits.reverse.find? fun bit => bit.key = k

/-- A field of the body after some bits were inserted. -/
def afterBits (body : MsgBody) (bits : List Bit) : MsgBody := fun k =>
  match lastBit bits k with
  | some bit => some (flag bit.IsSet)
  | none => body k

/-- No number that is listed has a negative shift. Of the bits with one key the last one counts:
where the body has the key, its value is the flag of that bit, and wherever the key is that of a
bit of a field of the body, that field lists the number of its bit exactly where the last bit is
set. -/
structure ShiftsAgree (body : MsgBody) (cfgs : List BitStringField) : Prop where
  /-- No number that a field lists in its turn has a negative shift. -/
  notNegative : ∀ before cfg after, cfgs = before ++ cfg :: after →
    ∀ values, valuesAfter body (bitsFrom body [] before) cfg = some values →
      ∀ value ∈ values, 0 ≤ shiftOf value
  /-- A field of the body that is a bit has the value of the bit. -/
  kept : ∀ k v bit, body k = some v → lastBit (bitsFrom body [] cfgs) k = some bit →
    v = flag bit.IsSet
  /-- The last bit of a key is set where a field of the body lists the number. -/
  right : ∀ cfg ∈ cfgs, ∀ values, Lists body cfg values → ∀ (i : ℕ) (name : String),
    cfg.BitStrings[i]? = some name →
      ∀ bit, lastBit (bitsFrom body [] cfgs) (cfg.key name) = some bit →
        (bit.IsSet ↔ ∃ value ∈ values, floatEq value (floatOfNat i) = true)

/-- Two flags are the same exactly where their conditions are. -/
theorem flag_eq_iff (a b : Prop) [Decidable a] [Decidable b] : flag a = flag b ↔ (a ↔ b) := by
  by_cases ha : a <;> by_cases hb : b <;> simp [flag, ha, hb]
  · decide
  · decide

section Run

variable {body : MsgBody} {bits : List Bit} {cfg : BitStringField}

/-- Later bits hide the ones before them. -/
theorem lastBit_append (bits more : List Bit) (k : String) :
    lastBit (bits ++ more) k = (lastBit more k).or (lastBit bits k) := by
  rw [lastBit, List.reverse_append, List.find?_append]
  rfl

/-- A key that a bit has stands for some bit. -/
theorem exists_lastBit {bit : Bit} (hbit : bit ∈ bits) :
    ∃ last, lastBit bits bit.key = some last := by
  have hsome : (lastBit bits bit.key).isSome = true := by
    rw [lastBit, List.find?_isSome]
    exact ⟨bit, List.mem_reverse.2 hbit, decide_eq_true rfl⟩
  exact Option.isSome_iff_exists.1 hsome

theorem lastBit_eq_none (hnone : ¬ bits.any (·.key = cfg.FieldName) = true) :
    lastBit bits cfg.FieldName = none := by
  rw [lastBit, List.find?_eq_none]
  intro bit hbit hkey
  exact hnone (List.any_eq_true.2 ⟨bit, List.mem_reverse.1 hbit, hkey⟩)

/-- One more bit is an update of its key. -/
theorem afterBits_append_singleton (bit : Bit) :
    afterBits body (bits ++ [bit]) =
      Function.update (afterBits body bits) bit.key (some (flag bit.IsSet)) := by
  funext k
  rw [afterBits, lastBit_append]
  by_cases hkey : bit.key = k
  · subst hkey
    simp [lastBit]
  · rw [Function.update_of_ne (Ne.symm hkey), afterBits]
    simp [lastBit, hkey]

/-- A loop over bits leaves the last one of each key. -/
theorem foldl_update (more : List Bit) :
    more.foldl (fun (before : MsgBody) bit =>
        Function.update before bit.key (some (flag bit.IsSet))) (afterBits body bits) =
      afterBits body (bits ++ more) := by
  induction more generalizing bits with
  | nil => rw [List.foldl_nil, List.append_nil]
  | cons bit more ih =>
    rw [List.foldl_cons, ← afterBits_append_singleton, ih, List.append_assoc,
      List.singleton_append]

/-- The bits that the mask of some numbers inserts. -/
theorem insertBits_eq {values : List UInt64} {mask : UInt64}
    (hmask : ∀ i : ℕ, mask.toNat.testBit i ↔ ∃ value ∈ values, shiftOf value = i) :
    insertBits cfg mask (afterBits body bits) = afterBits body (bits ++ cfg.bits values) := by
  rw [← foldl_update, BitStringField.bits, List.foldl_map, insertBits]
  congr 1
  funext before entry
  have hset : mask &&& UInt64.ofNat (2 ^ entry.2) ≠ 0 ↔
      Bit.IsSet ⟨cfg.key entry.1, values, entry.2⟩ := by
    rw [and_two_pow_ne_zero, hmask, Bit.IsSet]
  simp only [flag, hset]

/-- The numbers of a field in its turn are those that the code finds. -/
theorem valuesAfter_eq :
    (afterBits body bits cfg.FieldName).bind fieldValues = valuesAfter body bits cfg := by
  rw [valuesAfter, afterBits]
  split_ifs with hany
  · obtain ⟨bit, hbit, hkey⟩ := List.any_eq_true.1 hany
    rw [decide_eq_true_iff] at hkey
    obtain ⟨last, hlast⟩ := exists_lastBit hbit
    rw [← hkey, hlast]
    rfl
  · rw [lastBit_eq_none hany]

/-- One configured field: it panics at a negative shift, and else adds its bits. -/
theorem insertField_spec (body : MsgBody) (bits : List Bit) (cfg : BitStringField) :
    ((∀ values, valuesAfter body bits cfg = some values → ∀ value ∈ values, 0 ≤ shiftOf value) ∧
      insertField (afterBits body bits) cfg =
        some (afterBits body (bits ++ ((valuesAfter body bits cfg).map cfg.bits).getD []))) ∨
    (∃ values, valuesAfter body bits cfg = some values ∧ ∃ value ∈ values, shiftOf value < 0) ∧
      insertField (afterBits body bits) cfg = none := by
  rw [insertField, valuesAfter_eq]
  cases hvalues : valuesAfter body bits cfg with
  | none =>
    left
    simp
  | some values =>
    rcases foldlM_mark values 0 with ⟨hall, mask, hmask, htest⟩ | ⟨hneg, hnone⟩
    · left
      constructor
      · rintro _ ⟨⟩
        exact hall
      · simp only [hmask, Option.map_some, Option.getD_some]
        have hset : ∀ i : ℕ, mask.toNat.testBit i ↔ ∃ value ∈ values, shiftOf value = i := by
          intro i
          rw [htest]
          simp
        rw [insertBits_eq hset]
    · right
      exact ⟨⟨values, rfl, hneg⟩, by simp only [hnone, Option.map_none]⟩

/-- A run over configured fields panics at a negative shift, and else leaves their bits. -/
theorem foldlM_insertField (body : MsgBody) (cfgs : List BitStringField) (bits : List Bit) :
    ((∀ before cfg after, cfgs = before ++ cfg :: after →
        ∀ values, valuesAfter body (bitsFrom body bits before) cfg = some values →
          ∀ value ∈ values, 0 ≤ shiftOf value) ∧
      cfgs.foldlM insertField (afterBits body bits) =
        some (afterBits body (bitsFrom body bits cfgs))) ∨
    (∃ before cfg after, cfgs = before ++ cfg :: after ∧
        ∃ values, valuesAfter body (bitsFrom body bits before) cfg = some values ∧
          ∃ value ∈ values, shiftOf value < 0) ∧
      cfgs.foldlM insertField (afterBits body bits) = none := by
  induction cfgs generalizing bits with
  | nil =>
    refine Or.inl ⟨?_, rfl⟩
    rintro (_ | ⟨first, before⟩) cfg after hsplit <;> cases hsplit
  | cons cfg cfgs ih =>
    rw [List.foldlM_cons, bitsFrom]
    rcases insertField_spec body bits cfg with ⟨hpos, hnext⟩ | ⟨⟨values, hvalues, hneg⟩, hnone⟩
    · rw [hnext, Option.bind_eq_bind, Option.bind_some]
      rcases ih (bits ++ ((valuesAfter body bits cfg).map cfg.bits).getD []) with
        ⟨hall, hrun⟩ | ⟨⟨before, other, after, hsplit, hneg⟩, hnone⟩
      · refine Or.inl ⟨?_, hrun⟩
        rintro (_ | ⟨first, before⟩) other after hsplit
        · obtain ⟨rfl, rfl⟩ := List.cons.inj hsplit
          exact hpos
        · obtain ⟨rfl, rfl⟩ := List.cons.inj hsplit
          exact hall before other after rfl
      · refine Or.inr ⟨⟨cfg :: before, other, after, by rw [hsplit, List.cons_append], hneg⟩, hnone⟩
    · refine Or.inr ⟨⟨[], cfg, cfgs, rfl, values, hvalues, hneg⟩, ?_⟩
      rw [hnone]
      rfl

/-- The bits that are there stay, and further ones follow. -/
theorem bitsFrom_append (body : MsgBody) (first second : List BitStringField) (bits : List Bit) :
    bitsFrom body bits (first ++ second) = bitsFrom body (bitsFrom body bits first) second := by
  induction first generalizing bits with
  | nil => rfl
  | cons cfg first ih => rw [List.cons_append, bitsFrom, bitsFrom, ih]

theorem mem_bitsFrom {bit : Bit} (cfgs : List BitStringField) (hbit : bit ∈ bits) :
    bit ∈ bitsFrom body bits cfgs := by
  induction cfgs generalizing bits with
  | nil => exact hbit
  | cons cfg cfgs ih => exact ih (List.mem_append_left _ hbit)

/-- The bits of a field of the body are inserted. -/
theorem exists_lastBit_of_lists {cfgs : List BitStringField} {values : List UInt64} {i : ℕ}
    {name : String} (hcfg : cfg ∈ cfgs) (hlists : Lists body cfg values)
    (hname : cfg.BitStrings[i]? = some name) :
    ∃ bit, lastBit (bitsFrom body [] cfgs) (cfg.key name) = some bit := by
  obtain ⟨before, after, rfl⟩ := List.append_of_mem hcfg
  obtain ⟨others, hothers⟩ : ∃ others,
      valuesAfter body (bitsFrom body [] before) cfg = some others := by
    rw [valuesAfter]
    split_ifs
    · exact ⟨[], rfl⟩
    · exact ⟨values, hlists⟩
  have hbit : (⟨cfg.key name, others, i⟩ : Bit) ∈ cfg.bits others :=
    List.mem_map.2 ⟨(name, i), List.mk_mem_zipIdx_iff_getElem?.2 hname, rfl⟩
  have hmem : (⟨cfg.key name, others, i⟩ : Bit) ∈ bitsFrom body [] (before ++ cfg :: after) := by
    rw [bitsFrom_append, bitsFrom, hothers]
    exact mem_bitsFrom after (List.mem_append_right _ hbit)
  exact exists_lastBit hmem

end Run

/-- The bits are inserted exactly where the shifts agree with the numbers. -/
theorem inserts_iff_shiftsAgree (body : MsgBody) (cfgs : List BitStringField) :
    Inserts body cfgs ↔ ShiftsAgree body cfgs := by
  have hempty : afterBits body [] = body := rfl
  have hrun := foldlM_insertField body cfgs []
  rw [hempty] at hrun
  rcases hrun with ⟨hpos, hafter⟩ |
    ⟨⟨before, cfg, after, hsplit, values, hvalues, value, hmem, hneg⟩, hnone⟩
  · constructor
    · rintro ⟨result, hresult, hsame, hright⟩
      obtain rfl := Option.some.inj (hafter.symm.trans hresult)
      refine ⟨hpos, ?_, ?_⟩
      · intro k v bit hv hbit
        have hkept := hsame k v hv
        rw [afterBits, hbit] at hkept
        exact (Option.some.inj hkept).symm
      · intro cfg hcfg values hlists i name hname bit hbit
        have hflag := hright cfg hcfg values hlists i name hname
        rw [afterBits, hbit] at hflag
        exact (flag_eq_iff _ _).1 (Option.some.inj hflag)
    · intro hagree
      refine ⟨_, hafter, ?_, ?_⟩
      · intro k v hv
        cases hbit : lastBit (bitsFrom body [] cfgs) k with
        | none => rw [afterBits, hbit, hv]
        | some bit => rw [afterBits, hbit, hagree.kept k v bit hv hbit]
      · intro cfg hcfg values hlists i name hname
        obtain ⟨bit, hbit⟩ := exists_lastBit_of_lists hcfg hlists hname
        rw [afterBits, hbit, Option.some.injEq, flag_eq_iff]
        exact hagree.right cfg hcfg values hlists i name hname bit hbit
  · constructor
    · rintro ⟨result, hresult, -⟩
      cases hnone.symm.trans hresult
    · intro hagree
      have hpos := hagree.notNegative before cfg after hsplit values hvalues value hmem
      omega

/-- A body with one field that lists one number. -/
def oneFault (value : UInt64) : MsgBody :=
  Function.update (fun _ => none) "faults" (some (.slice [.map [("value", .float64 value)]]))

/-- A listed minus one panics. -/
theorem inserts_fails : ¬ Inserts (oneFault (floatOfInt (-1))) [⟨"faults", ["low"]⟩] := by
  rintro ⟨after, hafter, -⟩
  have hnone : insertBitStringBitFields (oneFault (floatOfInt (-1))) [⟨"faults", ["low"]⟩] = none :=
    rfl
  cases hnone.symm.trans hafter

end HybridOs.FtdBitStrings
