import HybridOs.Enumeration
import HybridOs.GoValue
import Mathlib

/-!
# Encoding message bodies

The first message fixes the keys of an encoder and the type of each. Strings, and the maps in
slices, are written as enumeration bytes, and a value that does not fit its key as a marker.
A map stands as the list of its entries in the order in which it is ranged over.
-/

namespace HybridOs.FimsCodec

/-- The entries of a `map[string]interface{}`. -/
abbrev Entries := List (String × GoValue)

/-- The types that a key is encoded as. -/
inductive DataType where
  | float64 | string | bool | sliceOfMaps
  deriving DecidableEq, Repr

/-- What `reflect` calls a type. -/
def DataType.text : DataType → String
  | .float64 => "float64"
  | .string => "string"
  | .bool => "bool"
  | .sliceOfMaps => "[]map[string]interface \x7b\x7d"

/-- `missingFloatMarker`. -/
def missingFloatMarker : UInt64 := GoValue.floatOfNat 0xFFDEADBEEFFF

/-- `missingBoolMarker`. -/
def missingBoolMarker : UInt8 := 0xAB

/-- `illegalChars`. -/
def illegalChars : List Char := [';', '\t', '\n']

/-- `strings.ContainsAny(s, illegalChars)`. -/
def containsIllegal (s : String) : Bool := s.toList.any fun c => illegalChars.contains c

/-- `invalidStringMarker`. -/
def invalidStringMarker : String := "[CODEC MARKED INVALID STRING]"

/-- `castToFloat`. -/
def castToFloat : GoValue → Option UInt64
  | .float64 bits => some bits
  | .int n => some (GoValue.floatOfInt n)
  | _ => none

/-- What `mapHoldsUiControl` finds, or nothing if the type of a control is not a string. -/
def mapHoldsUiControl (data : Entries) : Option Bool :=
  match data.lookup "value", data.lookup "ui_type" with
  | none, _ => some true
  | some _, none => some false
  | some _, some (.string uiType) => some (uiType = "control")
  | some _, some _ => none

/-- `castToMapSlice`. -/
def castToMapSlice : List GoValue → Option (List Entries)
  | [] => some []
  | .map entries :: rest => (castToMapSlice rest).map (entries :: ·)
  | _ :: _ => none

/-- Whether `strings.ToLower` makes `timestamp` of a key. The capital letter I with a dot is
the only letter outside ASCII that it makes a letter of that word. -/
def isTimestamp (key : String) : Bool :=
  key.toList.map (fun c => if c = 'İ' then 'i' else c.toLower) = "timestamp".toList

/-- The bytes of a 64-bit word, the most significant first. -/
def bigEndian (bits : UInt64) : List UInt8 :=
  (List.range 8).map fun index => UInt8.ofNat (bits.toNat / 256 ^ (7 - index))

/-! ## Enumerations -/

/-- `stringEncoder`, with its entries in the order in which they were made. -/
abbrev StringEncoder := List (String × UInt8)

/-- `mapEncoder`. -/
abbrev MapEncoder := List (UInt8 × Entries)

namespace StringEncoder

/-- `getOrUpdateStringEnum`, which fails on a new string with illegal characters. -/
def getOrUpdateStringEnum (stringEnums : StringEncoder) (valueString : String) :
    Option (UInt8 × StringEncoder) :=
  match stringEnums.lookup valueString with
  | some enumeration => some (enumeration, stringEnums)
  | none =>
    if containsIllegal valueString then none
    else
      let enumeration := UInt8.ofNat (stringEnums.length + 1)
      some (enumeration, stringEnums ++ [(valueString, enumeration)])

/-- The enumeration of a string, or that of `invalidStringMarker`. -/
def encode (stringEnums : StringEncoder) (valueString : String) : UInt8 × StringEncoder :=
  match stringEnums.getOrUpdateStringEnum valueString with
  | some result => result
  | none => (stringEnums.getOrUpdateStringEnum invalidStringMarker).getD (0, stringEnums)

end StringEncoder

namespace MapEncoder

/-- A map encoder in which an enumeration stands for a map. -/
def write (mapEnums : MapEncoder) (enumeration : UInt8) (valueMap : Entries) : MapEncoder :=
  if (mapEnums.lookup enumeration).isSome then
    mapEnums.map fun entry => if entry.1 = enumeration then (enumeration, valueMap) else entry
  else mapEnums ++ [(enumeration, valueMap)]

/-- An entry whose key or string value has illegal characters. -/
def illegalEntry : String × GoValue → Bool
  | (key, .string s) => containsIllegal key || containsIllegal s
  | (key, _) => containsIllegal key

/-- `getOrUpdateMapEnum`. -/
def getOrUpdateMapEnum (mapEnums : MapEncoder) (valueMap : Entries) :
    Option (UInt8 × MapEncoder) :=
  match mapEnums.find? fun entry => GoValue.deepEqual (.map valueMap) (.map entry.2) with
  | some (enumeration, _) => some (enumeration, mapEnums)
  | none =>
    if valueMap.any illegalEntry then none
    else
      let newEnumeration := UInt8.ofNat (mapEnums.length + 1)
      some (newEnumeration, mapEnums.write newEnumeration valueMap)

/-- What an entry of an invalid map is replaced by. -/
def markInvalid : String × GoValue → String × GoValue
  | (key, .string s) => (key, .string (if containsIllegal s then invalidStringMarker else s))
  | entry => entry

/-- The enumeration of a map, or that of the map that `getOrUpdateInvalidMapEnum` makes of it,
which is 0 where a key has illegal characters. -/
def encode (mapEnums : MapEncoder) (valueMap : Entries) : UInt8 × MapEncoder :=
  match mapEnums.getOrUpdateMapEnum valueMap with
  | some result => result
  | none => (mapEnums.getOrUpdateMapEnum (valueMap.map markInvalid)).getD (0, mapEnums)

/-- The enumerations of the maps of a slice. -/
def encodeAll (mapEnums : MapEncoder) : List Entries → List UInt8 × MapEncoder
  | [] => ([], mapEnums)
  | valueMap :: rest =>
    let (enumeration, next) := mapEnums.encode valueMap
    let (enumerations, last) := encodeAll next rest
    (enumeration :: enumerations, last)

/-- A slice of maps: the number of maps as a byte, and the enumeration of each. -/
def encodeSlice (mapEnums : MapEncoder) (mapSlice : List Entries) : List UInt8 × MapEncoder :=
  let (mapEnumerations, next) := mapEnums.encodeAll mapSlice
  (UInt8.ofNat mapEnumerations.length :: mapEnumerations, next)

end MapEncoder

/-! ## The encoder -/

/-- `keyMetadata`. -/
structure KeyMetadata where
  key : String
  dataType : DataType
  stringEnums : StringEncoder
  mapEnums : MapEncoder

/-- `Encoder`. -/
structure Encoder where
  uri : String
  keyMetadatas : List KeyMetadata
  additionalData : List (String × String)
  data : List UInt8
  numMessages : ℕ

/-- `MaxMessageCount`. -/
def maxMessageCount : ℕ := 2 ^ 16 - 1

/-- `NewEncoder`, with the given additional data. -/
def newEncoder (uri : String) (additionalData : List (String × String)) : Encoder where
  uri := uri
  keyMetadatas := []
  additionalData := additionalData
  data := []
  numMessages := 0

/-- `appendMissingDataMarker`. -/
def missingDataMarker : DataType → List UInt8
  | .string => [0]
  | .bool => [missingBoolMarker]
  | .sliceOfMaps => [0]
  | .float64 => bigEndian missingFloatMarker

/-- The byte of a boolean. -/
def boolByte (b : Bool) : UInt8 := if b then 1 else 0

/-- What a value of a first message is encoded as: its key's metadata and its bytes. A value of
another type is left out, and the type of the nil interface cannot be asked for. -/
def encodeFirst (key : String) (value : GoValue) : Option (Option (KeyMetadata × List UInt8)) :=
  match castToFloat value, value with
  | some bits, _ => some (some (⟨key, .float64, [], []⟩, bigEndian bits))
  | none, .nil => none
  | none, .string s =>
    let (enumByte, stringEnums) := StringEncoder.encode [] s
    some (some (⟨key, .string, stringEnums, []⟩, [enumByte]))
  | none, .bool b => some (some (⟨key, .bool, [], []⟩, [boolByte b]))
  | none, .slice elems =>
    match castToMapSlice elems with
    | none => some none
    | some mapSlice =>
      let (bytes, mapEnums) := MapEncoder.encodeSlice [] mapSlice
      some (some (⟨key, .sliceOfMaps, [], mapEnums⟩, bytes))
  | none, _ => some none

/-- The value that a field of a first message stands for, if it is neither null, nor a control,
nor a map without a value. -/
def nakedFirst : GoValue → Option GoValue
  | .nil => none
  | .map valueWrapping =>
    if mapHoldsUiControl valueWrapping = some false then valueWrapping.lookup "value" else none
  | value => some value

/-- `addDataToNewEncoder`. It gives nothing where it panics. -/
def addDataToNewEncoder (key : String) (value : GoValue) (encoder : Encoder) : Option Encoder :=
  match nakedFirst value with
  | none => some encoder
  | some value =>
    (encodeFirst key value).map fun encoded =>
      match encoded with
      | none => encoder
      | some (keyMeta, bytes) =>
        { encoder with
          data := encoder.data ++ bytes, keyMetadatas := encoder.keyMetadatas ++ [keyMeta] }

/-- The fields of a first message, in the order in which they are ranged over. -/
def addFields : Entries → Encoder → Option Encoder
  | [], encoder => some encoder
  | (key, value) :: rest, encoder =>
    if isTimestamp key then addFields rest encoder
    else (addDataToNewEncoder key value encoder).bind (addFields rest)

/-- The value that a field of a later message stands for. -/
def nakedLater : GoValue → Option GoValue
  | .map valueWrapping => valueWrapping.lookup "value"
  | value => some value

namespace KeyMetadata

/-- What a value of a later message is encoded as, if it fits the type of the key. -/
def encodeLater (keyMeta : KeyMetadata) (value : GoValue) : Option (List UInt8 × KeyMetadata) :=
  match keyMeta.dataType with
  | .float64 => (castToFloat value).map fun bits => (bigEndian bits, keyMeta)
  | .string =>
    match value with
    | .string s =>
      let (enumByte, stringEnums) := keyMeta.stringEnums.encode s
      some ([enumByte], { keyMeta with stringEnums })
    | _ => none
  | .bool =>
    match value with
    | .bool b => some ([boolByte b], keyMeta)
    | _ => none
  | .sliceOfMaps =>
    match value with
    | .slice [] => none
    | .slice elems =>
      (castToMapSlice elems).map fun mapSlice =>
        let (bytes, mapEnums) := keyMeta.mapEnums.encodeSlice mapSlice
        (bytes, { keyMeta with mapEnums })
    | _ => none

/-- `addDataToExistingEncoder` of the field under the key, if there is one: the bytes that it
adds, and the metadata afterwards. -/
def addData (keyMeta : KeyMetadata) (bodyMap : Entries) : List UInt8 × KeyMetadata :=
  (((bodyMap.lookup keyMeta.key).bind nakedLater).bind keyMeta.encodeLater).getD
    (missingDataMarker keyMeta.dataType, keyMeta)

/-- The fields of a later message, key by key. -/
def addAll (bodyMap : Entries) : List KeyMetadata → List UInt8 × List KeyMetadata
  | [] => ([], [])
  | keyMeta :: rest =>
    let (bytes, keyMeta) := keyMeta.addData bodyMap
    let (further, keyMetas) := addAll bodyMap rest
    (bytes ++ further, keyMeta :: keyMetas)

end KeyMetadata

/-- `addDataIngestionTimestamp`. -/
def addDataIngestionTimestamp (now : UInt64) (encoder : Encoder) : Encoder :=
  { encoder with data := encoder.data ++ bigEndian now }

/-- The errors of `Encode`. -/
inductive EncodeError where
  | maxMessageCount
  | emptyBody
  deriving DecidableEq, Repr

/-- `Encode`. It gives nothing where it panics. -/
def encode (now : UInt64) (bodyMap : Entries) (encoder : Encoder) :
    Option (Except EncodeError Encoder) :=
  if encoder.numMessages = maxMessageCount then some (.error .maxMessageCount)
  else if bodyMap = [] then some (.error .emptyBody)
  else
    let encoder := addDataIngestionTimestamp now encoder
    if encoder.numMessages = 0 then
      (addFields bodyMap encoder).map fun encoder =>
        .ok { encoder with numMessages := encoder.numMessages + 1 }
    else
      let (bytes, keyMetadatas) := KeyMetadata.addAll bodyMap encoder.keyMetadatas
      some (.ok { encoder with
        data := encoder.data ++ bytes, keyMetadatas, numMessages := encoder.numMessages + 1 })

/-!
## Decoding message bodies

The decoders of the keys read their values off a buffer one after the other. A data file is
the number of its messages and then, for each of them, its time and its values. The decoders
that belong to an encoder are made of the enumerations in its metadata.
-/

/-- `keyDecoder`. -/
structure KeyDecoder where
  key : String
  dataType : String
  mapDecoder : List Entries
  stringDecoder : List String

/-- What is left of a `bytes.Buffer`. -/
abbrev Buffer := List UInt8

/-- The number that bytes spell, the most significant first. -/
def fromBigEndian (bytes : List UInt8) : ℕ := bytes.foldl (fun n byte => n * 256 + byte.toNat) 0

/-- `readBytesIntoBuffer`, of at least one byte. -/
def readBytesIntoBuffer (sourceBuff : Buffer) (numBytesToRead : ℕ) : Option (List UInt8 × Buffer) :=
  if numBytesToRead ≤ sourceBuff.length then
    some (sourceBuff.take numBytesToRead, sourceBuff.drop numBytesToRead)
  else none

/-- `destinationMap[key] = value`. -/
def Entries.write (destinationMap : Entries) (key : String) (value : GoValue) : Entries :=
  if (destinationMap.lookup key).isSome then
    destinationMap.map fun entry => if entry.1 = key then (key, value) else entry
  else destinationMap ++ [(key, value)]

namespace KeyDecoder

/-- `decodeSingleFloat64FromBufferToMap`: the value that it puts into the map, if any. -/
def decodeSingleFloat64 (dataBuffer : Buffer) : Option (Option GoValue × Buffer) :=
  (readBytesIntoBuffer dataBuffer 8).map fun (float64AsBytes, rest) =>
    let floatBits := UInt64.ofNat (fromBigEndian float64AsBytes)
    (if GoValue.floatEq floatBits missingFloatMarker then none else some (.float64 floatBits), rest)

/-- `decodeSingleBoolFromBufferToMap`. -/
def decodeSingleBool : Buffer → Option (Option GoValue × Buffer)
  | [] => none
  | byte :: rest =>
    some (if byte = 0 then some (.bool false) else if byte = 1 then some (.bool true) else none,
      rest)

/-- `decodeSingleStringFromBufferToMap`. -/
def decodeSingleString (decoder : KeyDecoder) : Buffer → Option (Option GoValue × Buffer)
  | [] => none
  | enumeration :: rest =>
    if decoder.stringDecoder.length < enumeration.toNat then none
    else if enumeration = 0 then some (none, rest)
    else some ((decoder.stringDecoder[enumeration.toNat - 1]?).map .string, rest)

/-- The maps that enumerations stand for. -/
def decodeMaps (decoder : KeyDecoder) : List UInt8 → Option (List GoValue)
  | [] => some []
  | mapEnum :: mapEnums =>
    if mapEnum = 0 ∨ decoder.mapDecoder.length < mapEnum.toNat then none
    else
      match decoder.mapDecoder[mapEnum.toNat - 1]? with
      | none => none
      | some entries => (decoder.decodeMaps mapEnums).map (.map entries :: ·)

/-- `decodeSingleMapSliceFromBufferToMap`. -/
def decodeSingleMapSlice (decoder : KeyDecoder) : Buffer → Option (Option GoValue × Buffer)
  | [] => none
  | numEnumerations :: rest =>
    if numEnumerations = 0 then some (none, rest)
    else
      (readBytesIntoBuffer rest numEnumerations.toNat).bind fun (mapEnums, rest) =>
        (decoder.decodeMaps mapEnums).map fun sliceOfMaps => (some (.slice sliceOfMaps), rest)

/-- The value of one key. -/
def decodeSingle (decoder : KeyDecoder) (dataBuffer : Buffer) : Option (Option GoValue × Buffer) :=
  if decoder.dataType = "float64" then decodeSingleFloat64 dataBuffer
  else if decoder.dataType = "bool" then decodeSingleBool dataBuffer
  else if decoder.dataType = "string" then decoder.decodeSingleString dataBuffer
  else if decoder.dataType = DataType.sliceOfMaps.text then decoder.decodeSingleMapSlice dataBuffer
  else none

/-- The values of all keys, put into a message body. -/
def decodeKeys : List KeyDecoder → Buffer → Entries → Option (Entries × Buffer)
  | [], dataBuffer, msgBody => some (msgBody, dataBuffer)
  | decoder :: decoders, dataBuffer, msgBody =>
    (decoder.decodeSingle dataBuffer).bind fun (value, rest) =>
      decodeKeys decoders rest (value.elim msgBody (msgBody.write decoder.key))

/-- `decodeSingleFimsMsg`. -/
def decodeSingleFimsMsg (decoders : List KeyDecoder) (dataBuffer : Buffer) :
    Option ((UInt64 × Entries) × Buffer) :=
  (readBytesIntoBuffer dataBuffer 8).bind fun (uint64AsBytes, rest) =>
    (decodeKeys decoders rest []).map fun (msgBody, rest) =>
      ((UInt64.ofNat (fromBigEndian uint64AsBytes), msgBody), rest)

/-- The given number of messages. -/
def decodeMessages (decoders : List KeyDecoder) : ℕ → Buffer →
    Option (List (UInt64 × Entries) × Buffer)
  | 0, dataBuffer => some ([], dataBuffer)
  | numMessages + 1, dataBuffer =>
    (decodeSingleFimsMsg decoders dataBuffer).bind fun (msg, rest) =>
      (decodeMessages decoders numMessages rest).map fun (msgs, rest) => (msg :: msgs, rest)

/-- `decodeFimsMessages`. A second byte that is not there counts as zero. -/
def decodeFimsMessages (decoders : List KeyDecoder) :
    Buffer → Option (List (UInt64 × Entries) × Buffer)
  | [] => none
  | [first] => decodeMessages decoders (fromBigEndian [first, 0]) []
  | first :: second :: rest => decodeMessages decoders (fromBigEndian [first, second]) rest

end KeyDecoder

/-! ## The decoders of an encoder -/

namespace StringEncoder

/-- One string of `stringsInOrderOfEnumeration` is set, where the index is not out of range. -/
def setInOrder (ordered : List String) (entry : String × UInt8) : Option (List String) :=
  let index := (entry.2 - 1).toNat
  if index < ordered.length then some (ordered.set index entry.1) else none

/-- `stringsInOrderOfEnumeration`. It gives nothing where the source panics. -/
def inOrder (stringEnums : StringEncoder) : Option (List String) :=
  stringEnums.foldlM setInOrder (List.replicate stringEnums.length "")

end StringEncoder

/-- The maps in the order of their enumerations, if none is missing. -/
def MapEncoder.inOrder (mapEnums : MapEncoder) : Option (List Entries) :=
  (List.range mapEnums.length).mapM fun index => mapEnums.lookup (UInt8.ofNat (index + 1))

/-- The decoder that belongs to the metadata of a key. -/
def KeyMetadata.decoder (keyMeta : KeyMetadata) : Option KeyDecoder := do
  let stringDecoder ← keyMeta.stringEnums.inOrder
  let mapDecoder ← keyMeta.mapEnums.inOrder
  return ⟨keyMeta.key, keyMeta.dataType.text, mapDecoder, stringDecoder⟩

namespace Encoder

/-- The decoders that belong to the keys of an encoder. -/
def decoders (encoder : Encoder) : Option (List KeyDecoder) :=
  encoder.keyMetadatas.mapM KeyMetadata.decoder

/-- The data file that `CreateArchive` writes. -/
def dataFile (encoder : Encoder) : Buffer :=
  UInt8.ofNat (encoder.numMessages / 256) :: UInt8.ofNat encoder.numMessages :: encoder.data

end Encoder

/-!
## The enumerations of a key

The strings of a key are numbered in the order in which they first appear, and so are its maps,
where deeply equal maps count as the same. Illegal strings stand for one marker. As long as
there are at most 255 of them, the decoder that belongs to the key lists them in that order.
-/

open Enumeration

/-! ## Strings -/

/-- The string that a string is encoded as. -/
def marked (s : String) : String := if containsIllegal s then invalidStringMarker else s

/-- A marked text holds no illegal character. -/
theorem marked_legal (s : String) : containsIllegal (marked s) = false := by
  rw [marked]
  split_ifs with h
  · decide +kernel
  · exact (Bool.not_eq_true _).mp h

variable {s : String} {strings : List String} {entry : String × GoValue} {valueMap : Entries}
  {maps : List Entries}

/-- A legal text is left as it is. -/
theorem marked_of_legal (h : containsIllegal s = false) : marked s = s := by
  rw [marked, h]
  rfl

/-- Whether two strings are the same. -/
abbrev sameString (a b : String) : Bool := a == b

/-- The string enumerations that a table of strings stands for. -/
def stringTable (strings : List String) : StringEncoder := (numbered strings).map Prod.swap

/-- The table has an entry for each text. -/
@[simp] theorem length_stringTable (strings : List String) :
    (stringTable strings).length = strings.length := by
  rw [stringTable, List.length_map, length_numbered]

/-- Looking up in the swapped table is finding by value. -/
theorem lookup_map_swap (entries : List (UInt8 × String)) (s : String) :
    (entries.map Prod.swap).lookup s =
      (entries.find? fun entry => sameString s entry.2).map Prod.fst := by
  induction entries with
  | nil => rfl
  | cons entry rest ih =>
    obtain ⟨enumeration, other⟩ := entry
    rw [List.map_cons, Prod.swap_prod_mk, List.lookup_cons, List.find?_cons, ih]
    by_cases hs : (s == other) = true
    · simp [hs]
    · simp [hs]

/-- A legal text gets its number, a new one if it is not there yet. -/
theorem getOrUpdateStringEnum_legal (strings : List String) (hs : containsIllegal s = false) :
    (stringTable strings).getOrUpdateStringEnum s =
      some (number sameString strings s, stringTable (enter sameString strings s)) := by
  rw [StringEncoder.getOrUpdateStringEnum, number, stringTable, lookup_map_swap]
  by_cases hany : strings.any (sameString s) = true
  · obtain ⟨index, b, -, -, hfind⟩ := find?_numbered_of_any hany
    rw [hfind, enter_of_any hany]
    rfl
  · rw [Bool.not_eq_true] at hany
    rw [find?_numbered_of_not_any hany, enter_of_not_any hany]
    simp only [hs]
    rw [stringTable, numbered_concat, List.map_append, List.length_map, length_numbered]
    rfl

/-- An illegal text gets none. -/
theorem getOrUpdateStringEnum_illegal (hlegal : ∀ s ∈ strings, containsIllegal s = false)
    (hs : containsIllegal s = true) : (stringTable strings).getOrUpdateStringEnum s = none := by
  have hany : strings.any (sameString s) = false := by
    rw [List.any_eq_false]
    intro other hother hsame
    have heq : s = other := beq_iff_eq.mp hsame
    rw [heq, hlegal other hother] at hs
    cases hs
  rw [StringEncoder.getOrUpdateStringEnum, stringTable, lookup_map_swap,
    find?_numbered_of_not_any hany]
  simp only [Option.map_none, hs, if_true]

/-- A string is encoded as the number of the string that it stands for. -/
theorem encode_string (hlegal : ∀ s ∈ strings, containsIllegal s = false) (s : String) :
    (stringTable strings).encode s =
      (number sameString strings (marked s), stringTable (enter sameString strings (marked s))) := by
  rw [StringEncoder.encode]
  by_cases hs : containsIllegal s = true
  · have hmarker : containsIllegal invalidStringMarker = false := by decide
    rw [getOrUpdateStringEnum_illegal hlegal hs, getOrUpdateStringEnum_legal strings hmarker, marked,
      if_pos hs]
    rfl
  · rw [Bool.not_eq_true] at hs
    rw [getOrUpdateStringEnum_legal strings hs, marked_of_legal hs]

/-- A table of legal texts stays one. -/
theorem legal_enter (hlegal : ∀ s ∈ strings, containsIllegal s = false) (s : String) :
    ∀ other ∈ enter sameString strings (marked s), containsIllegal other = false := by
  intro other hother
  rw [enter] at hother
  split_ifs at hother
  · exact hlegal other hother
  · rcases List.mem_append.mp hother with hold | hnew
    · exact hlegal other hold
    · rw [List.mem_singleton.mp hnew]
      exact marked_legal s

/-- Setting the texts in order fills the blanks one by one. -/
theorem foldlM_setInOrder (done rest : List String) (hlen : done.length + rest.length ≤ 255)
    (blanks : List String) (hblanks : blanks.length = rest.length) :
    ((numberedFrom (done.length + 1) rest).map Prod.swap).foldlM StringEncoder.setInOrder
      (done ++ blanks) = some (done ++ rest) := by
  induction rest generalizing done blanks with
  | nil =>
    rw [List.length_eq_zero_iff.mp hblanks]
    rfl
  | cons s rest ih =>
    cases blanks with
    | nil => cases hblanks
    | cons blank blanks =>
      rw [List.length_cons] at hlen
      have hindex : (UInt8.ofNat (done.length + 1) - 1).toNat = done.length := by
        rw [UInt8.ofNat_add]
        change (UInt8.ofNat done.length + 1 - 1).toNat = done.length
        rw [UInt8.add_sub_cancel, byte_toNat (by omega)]
      rw [numberedFrom, List.map_cons, List.foldlM_cons, Prod.swap_prod_mk,
        StringEncoder.setInOrder]
      dsimp only
      rw [hindex, if_pos (by simp), List.set_append_right _ _ le_rfl, Nat.sub_self, List.set_cons_zero]
      have hstep := ih (done ++ [s]) (by rw [List.length_append, List.length_singleton]; omega) blanks
        (by simpa using hblanks)
      rw [List.length_append, List.length_singleton, List.append_assoc, List.append_assoc] at hstep
      exact hstep

/-- The strings of a table are read back in their order. -/
theorem inOrder_stringTable (hlen : strings.length ≤ 255) :
    (stringTable strings).inOrder = some strings := by
  rw [StringEncoder.inOrder, length_stringTable]
  exact foldlM_setInOrder [] strings (by rw [List.length_nil]; omega) _ List.length_replicate

/-! ## Maps -/

/-- Whether two maps are deeply equal. -/
abbrev sameMap (a b : Entries) : Bool := GoValue.deepEqual (.map a) (.map b)

/-- The map that a map is encoded as. -/
def markedMap (valueMap : Entries) : Entries := valueMap.map MapEncoder.markInvalid

/-- No key has illegal characters. -/
def KeysLegal (valueMap : Entries) : Prop := ∀ entry ∈ valueMap, containsIllegal entry.1 = false

/-- Neither a key nor a string value has illegal characters. -/
def Legal (valueMap : Entries) : Prop := valueMap.any MapEncoder.illegalEntry = false

variable {key : String} {entries other : Entries}

/-- An entry is illegal by its key or its text. -/
theorem illegalEntry_of_string :
    MapEncoder.illegalEntry (key, .string s) = (containsIllegal key || containsIllegal s) := rfl

/-- A marked entry with a legal key is legal. -/
theorem illegalEntry_markInvalid (h : containsIllegal entry.1 = false) :
    MapEncoder.illegalEntry (MapEncoder.markInvalid entry) = false := by
  rcases entry with ⟨key, value⟩
  cases value with
  | string s =>
    change MapEncoder.illegalEntry (key, .string (marked s)) = false
    rw [illegalEntry_of_string, marked_legal, Bool.or_false]
    exact h
  | _ => exact h

/-- A legal entry is left as it is. -/
theorem markInvalid_of_legal (h : MapEncoder.illegalEntry entry = false) :
    MapEncoder.markInvalid entry = entry := by
  rcases entry with ⟨key, value⟩
  cases value with
  | string s =>
    rw [illegalEntry_of_string, Bool.or_eq_false_iff] at h
    change (key, GoValue.string (marked s)) = (key, .string s)
    rw [marked_of_legal h.2]
  | _ => rfl

/-- A marked map with legal keys is legal. -/
theorem legal_markedMap (h : KeysLegal valueMap) : Legal (markedMap valueMap) := by
  rw [Legal, markedMap, List.any_eq_false]
  intro entry hentry
  obtain ⟨original, horiginal, rfl⟩ := List.mem_map.mp hentry
  rw [illegalEntry_markInvalid (h original horiginal)]
  decide

/-- A legal map is left as it is. -/
theorem markedMap_of_legal (h : Legal valueMap) : markedMap valueMap = valueMap := by
  rw [Legal, List.any_eq_false] at h
  rw [markedMap]
  conv_rhs => rw [← List.map_id valueMap]
  refine List.map_congr_left fun entry hentry => ?_
  exact markInvalid_of_legal ((Bool.not_eq_true _).mp (h entry hentry))

/-- What is found is there. -/
theorem mem_of_lookup {value : GoValue} (h : entries.lookup key = some value) :
    (key, value) ∈ entries := by
  obtain ⟨before, after, rfl, -⟩ := List.lookup_eq_some_iff.mp h
  exact List.mem_append_right _ List.mem_cons_self

/-- Deeply equal maps have equal entries. -/
theorem exists_of_deepEqualMap (h : GoValue.deepEqualMap entries other = true)
    (hentry : entry ∈ entries) :
    ∃ b, (entry.1, b) ∈ other ∧ GoValue.deepEqual entry.2 b = true := by
  induction entries with
  | nil => cases hentry
  | cons first rest ih =>
    obtain ⟨key, a⟩ := first
    rw [GoValue.deepEqualMap, Bool.and_eq_true] at h
    rcases List.mem_cons.mp hentry with rfl | hrest
    · cases hlookup : other.lookup key with
      | none =>
        rw [hlookup] at h
        cases h.1
      | some b =>
        rw [hlookup] at h
        exact ⟨b, mem_of_lookup hlookup, h.1⟩
    · exact ih h.2 hrest

/-- Only the same text equals a text. -/
theorem deepEqual_string {b : GoValue} (h : GoValue.deepEqual (.string s) b = true) :
    b = .string s := by
  cases b with
  | string t =>
    rw [GoValue.deepEqual, beq_iff_eq] at h
    rw [h]
  | _ => exact absurd h (by simp [GoValue.deepEqual])

/-- A map that is deeply equal to a legal one is legal. -/
theorem legal_of_same (h : sameMap valueMap other = true) (hother : Legal other) :
    Legal valueMap := by
  rw [sameMap, GoValue.deepEqual, Bool.and_eq_true] at h
  rw [Legal, List.any_eq_false] at hother ⊢
  rintro ⟨key, value⟩ hentry
  obtain ⟨b, hb, hdeep⟩ := exists_of_deepEqualMap h.2 hentry
  have hlegal := hother _ hb
  cases value with
  | string s =>
    rw [deepEqual_string hdeep] at hlegal
    exact hlegal
  | _ =>
    intro hkey
    refine hlegal ?_
    cases b with
    | string t => exact Bool.or_eq_true_iff.mpr (.inl hkey)
    | _ => exact hkey

/-- An enumeration that is not there yet is added. -/
theorem write_numbered (hlen : maps.length ≤ 255) (valueMap : Entries) :
    MapEncoder.write (numbered maps) (UInt8.ofNat (maps.length + 1)) valueMap =
      numbered (maps ++ [valueMap]) := by
  have hnone : (numbered maps).lookup (UInt8.ofNat (maps.length + 1)) = none := by
    by_cases hfull : maps.length = 255
    · have hzero : UInt8.ofNat (maps.length + 1) = UInt8.ofNat 0 := by
        rw [hfull]
        rfl
      rw [hzero]
      exact lookup_numberedFrom_none (by omega) (by omega) (.inl Nat.one_pos)
    · exact lookup_numberedFrom_none (by omega) (by omega) (.inr (by omega))
  rw [MapEncoder.write, hnone, numbered_concat]
  rfl

/-- A legal map gets its number, a new one if it is not there yet. -/
theorem getOrUpdateMapEnum_legal (hlen : maps.length ≤ 255) (hlegal : Legal valueMap) :
    MapEncoder.getOrUpdateMapEnum (numbered maps) valueMap =
      some (number sameMap maps valueMap, numbered (enter sameMap maps valueMap)) := by
  rw [MapEncoder.getOrUpdateMapEnum, number]
  by_cases hany : maps.any (sameMap valueMap) = true
  · obtain ⟨index, b, -, -, hfind⟩ := find?_numbered_of_any hany
    rw [hfind, enter_of_any hany]
  · rw [Bool.not_eq_true] at hany
    rw [find?_numbered_of_not_any hany, enter_of_not_any hany]
    dsimp only
    rw [hlegal, length_numbered, write_numbered hlen]
    rfl

/-- An illegal map gets none. -/
theorem getOrUpdateMapEnum_illegal (hlegal : ∀ m ∈ maps, Legal m) (hillegal : ¬ Legal valueMap) :
    MapEncoder.getOrUpdateMapEnum (numbered maps) valueMap = none := by
  have hany : maps.any (sameMap valueMap) = false := by
    rw [List.any_eq_false]
    intro other hother hsame
    exact hillegal (legal_of_same hsame (hlegal other hother))
  rw [MapEncoder.getOrUpdateMapEnum, find?_numbered_of_not_any hany]
  rw [(Bool.not_eq_false _).mp hillegal]
  rfl

/-- A map with legal keys is encoded as the number of the map that it stands for. -/
theorem encode_map (hlen : maps.length ≤ 255) (hlegal : ∀ m ∈ maps, Legal m)
    (hkeys : KeysLegal valueMap) :
    MapEncoder.encode (numbered maps) valueMap =
      (number sameMap maps (markedMap valueMap),
        numbered (enter sameMap maps (markedMap valueMap))) := by
  rw [MapEncoder.encode]
  by_cases h : Legal valueMap
  · rw [getOrUpdateMapEnum_legal hlen h, markedMap_of_legal h]
  · rw [getOrUpdateMapEnum_illegal hlegal h]
    exact congrArg (Option.getD · (0, numbered maps))
      (getOrUpdateMapEnum_legal hlen (legal_markedMap hkeys))

/-- A table of legal maps stays one. -/
theorem legal_enter_map (hlegal : ∀ m ∈ maps, Legal m) (hkeys : KeysLegal valueMap) :
    ∀ m ∈ enter sameMap maps (markedMap valueMap), Legal m := by
  intro m hm
  rw [enter] at hm
  split_ifs at hm
  · exact hlegal m hm
  · rcases List.mem_append.mp hm with hold | hnew
    · exact hlegal m hold
    · rw [List.mem_singleton.mp hnew]
      exact legal_markedMap hkeys

/-- A list is put together again from what is found at each of its places. -/
theorem mapM_range {found : ℕ → Option Entries}
    (h : ∀ index < maps.length, found index = maps[index]?) :
    (List.range maps.length).mapM found = some maps := by
  induction maps using List.reverseRecOn with
  | nil => rfl
  | append_singleton maps m ih =>
    rw [List.length_append, List.length_singleton] at h
    have hfront : (List.range maps.length).mapM found = some maps := by
      refine ih fun index hindex => ?_
      rw [h index (by omega), List.getElem?_append_left hindex]
    have hlast : found maps.length = some m := by
      rw [h maps.length (by omega), List.getElem?_append_right le_rfl, Nat.sub_self]
      rfl
    rw [List.length_append, List.length_singleton, List.range_succ, List.mapM_append, hfront]
    simp [hlast]

/-- The maps of a table are read back in their order. -/
theorem inOrder_numbered (hlen : maps.length ≤ 255) :
    MapEncoder.inOrder (numbered maps) = some maps := by
  rw [MapEncoder.inOrder, length_numbered]
  refine mapM_range fun index hindex => ?_
  rw [Nat.add_comm, numbered, lookup_numberedFrom (by omega) hindex,
    List.getElem?_eq_getElem hindex]
  rfl

/-!
## Encoding and decoding one field

The first message is encoded like a later one, with new metadata for each of its fields that
has a type. Each value is decoded from the bytes that it was encoded as, if the table of its
key has at most 255 strings and maps, and a slice at most 255 maps with legal keys.
-/

/-! ## The bytes of numbers -/

/-- The eight bytes of a number give it back. -/
theorem fromBigEndian_bigEndian (bits : UInt64) : fromBigEndian (bigEndian bits) = bits.toNat := by
  have hdigit : ∀ k, bits.toNat / 256 ^ (k + 1) * 256 + bits.toNat / 256 ^ k % 2 ^ 8 =
      bits.toNat / 256 ^ k := by
    intro k
    rw [pow_succ, ← Nat.div_div_eq_div_mul]
    exact Nat.div_add_mod' _ _
  have hfirst := hdigit 7
  rw [show bits.toNat / 256 ^ 8 = 0 from Nat.div_eq_of_lt bits.toNat_lt] at hfirst
  simp only [fromBigEndian, bigEndian, List.range, List.range.loop, List.map_cons, List.map_nil,
    List.foldl_cons, List.foldl_nil, UInt8.toNat_ofNat', hfirst]
  rw [hdigit 6, hdigit 5, hdigit 4, hdigit 3, hdigit 2, hdigit 1, hdigit 0]
  exact Nat.div_one _

/-- There are eight of them. -/
@[simp] theorem length_bigEndian (bits : UInt64) : (bigEndian bits).length = 8 := rfl

/-- The bytes at the front of a buffer are read, and the rest is left. -/
theorem readBytesIntoBuffer_append (bytes rest : Buffer) {n : ℕ} (hn : bytes.length = n) :
    readBytesIntoBuffer (bytes ++ rest) n = some (bytes, rest) := by
  subst hn
  rw [readBytesIntoBuffer, if_pos (by rw [List.length_append]; omega), List.take_left,
    List.drop_left]

/-! ## The first message -/

/-- The type that a value of a first message gives its key. -/
def typeOf (value : GoValue) : Option DataType :=
  match castToFloat value, value with
  | some _, _ => some .float64
  | none, .string _ => some .string
  | none, .bool _ => some .bool
  | none, .slice elems => if (castToMapSlice elems).isSome then some .sliceOfMaps else none
  | none, _ => none

namespace KeyMetadata

/-- The metadata of a key before its first value. -/
def fresh (key : String) (dataType : DataType) : KeyMetadata := ⟨key, dataType, [], []⟩

/-- What a value is encoded as, or the marker where there is none that fits. -/
def addValue (keyMeta : KeyMetadata) (value : Option GoValue) : List UInt8 × KeyMetadata :=
  (value.bind keyMeta.encodeLater).getD (missingDataMarker keyMeta.dataType, keyMeta)

end KeyMetadata

/-- A value of a first message is encoded like one of a later message. -/
theorem encodeFirst_eq (key : String) {value : GoValue} (hvalue : value ≠ .nil) :
    encodeFirst key value = some ((typeOf value).map fun dataType =>
      ((KeyMetadata.fresh key dataType).addValue (some value)).swap) := by
  cases value with
  | nil => exact absurd rfl hvalue
  | float64 bits | int n | bool b | string s | map entries => rfl
  | slice elems =>
    cases hmaps : castToMapSlice elems with
    | none => simp [encodeFirst, typeOf, castToFloat, hmaps]
    | some mapSlice =>
      cases elems with
      | nil =>
        cases hmaps
        rfl
      | cons first rest =>
        simp [encodeFirst, typeOf, castToFloat, hmaps, KeyMetadata.addValue,
          KeyMetadata.encodeLater, KeyMetadata.fresh]

/-- The keys that a first message gives an encoder, with their types. -/
def fieldsOf (bodyMap : Entries) : List (String × DataType) :=
  bodyMap.filterMap fun field =>
    if isTimestamp field.1 then none
    else ((nakedFirst field.2).bind typeOf).map (field.1, ·)

/-- The metadata of the keys of a first message before their first values. -/
def freshMetadatas (bodyMap : Entries) : List KeyMetadata :=
  (fieldsOf bodyMap).map fun field => KeyMetadata.fresh field.1 field.2

/-- A field that holds nothing but null below `value`. -/
def ClothedNull (field : String × GoValue) : Prop :=
  isTimestamp field.1 = false ∧ nakedFirst field.2 = some .nil

/-- What is taken out of the first value is taken out of a later one. -/
theorem nakedLater_of_first {value naked : GoValue} (h : nakedFirst value = some naked) :
    nakedLater value = some naked := by
  cases value with
  | nil => cases h
  | map valueWrapping =>
    rw [nakedFirst] at h
    split_ifs at h
    exact h
  | _ => exact h

/-- The fields of a message are added in turn, timestamps apart. -/
theorem addFields_cons (key : String) (value : GoValue) (rest : Entries) (encoder : Encoder) :
    addFields ((key, value) :: rest) encoder =
      if isTimestamp key then addFields rest encoder
      else (addDataToNewEncoder key value encoder).bind (addFields rest) := rfl

/-- Where no field is a clothed null, a first message is encoded like a later one. -/
theorem addFields_eq {bodyMap part : Entries} (encoder : Encoder)
    (hlookup : ∀ field ∈ part, bodyMap.lookup field.1 = some field.2)
    (hnull : ∀ field ∈ part, ¬ ClothedNull field) :
    addFields part encoder = some { encoder with
      data := encoder.data ++ (KeyMetadata.addAll bodyMap (freshMetadatas part)).1
      keyMetadatas := encoder.keyMetadatas ++
        (KeyMetadata.addAll bodyMap (freshMetadatas part)).2 } := by
  induction part generalizing encoder with
  | nil =>
    rw [addFields, freshMetadatas, fieldsOf, List.filterMap_nil, List.map_nil, KeyMetadata.addAll,
      List.append_nil, List.append_nil]
  | cons field rest ih =>
    obtain ⟨key, value⟩ := field
    have hrest := fun encoder => ih encoder (fun field hfield => hlookup field (List.mem_cons_of_mem _ hfield))
      (fun field hfield => hnull field (List.mem_cons_of_mem _ hfield))
    have hvalue := hlookup (key, value) List.mem_cons_self
    rw [addFields_cons]
    by_cases htime : isTimestamp key = true
    · rw [if_pos htime, hrest]
      simp only [freshMetadatas, fieldsOf, List.filterMap_cons, htime, if_true]
    · have hfirst := hnull (key, value) List.mem_cons_self
      rw [if_neg htime, addDataToNewEncoder]
      cases hnaked : nakedFirst value with
      | none =>
        rw [Option.bind_some, hrest]
        simp only [freshMetadatas, fieldsOf, List.filterMap_cons, htime, hnaked, Option.bind_none,
          Option.map_none, if_false, Bool.false_eq_true]
      | some naked =>
        have hne : naked ≠ .nil := fun hnil =>
          hfirst ⟨(Bool.not_eq_true _).mp htime, hnil ▸ hnaked⟩
        simp only [encodeFirst_eq key hne, Option.map_some, Option.bind_some]
        cases htype : typeOf naked with
        | none =>
          rw [Option.map_none, hrest]
          simp only [freshMetadatas, fieldsOf, List.filterMap_cons, htime, hnaked, Option.bind_some,
            htype, Option.map_none, if_false, Bool.false_eq_true]
        | some dataType =>
          have hdata : (KeyMetadata.fresh key dataType).addData bodyMap =
              (KeyMetadata.fresh key dataType).addValue (some naked) := by
            rw [KeyMetadata.addData, KeyMetadata.fresh, hvalue, Option.bind_some,
              nakedLater_of_first hnaked]
            rfl
          rw [Option.map_some, hrest]
          simp only [freshMetadatas, fieldsOf, List.filterMap_cons, htime, hnaked, Option.bind_some,
            htype, Option.map_some, if_false, Bool.false_eq_true, List.map_cons,
            KeyMetadata.addAll, hdata, List.append_assoc, List.singleton_append, Prod.swap]

/-! ## One field -/

/-- The string that a value is. -/
def asString : GoValue → Option String
  | .string s => some s
  | _ => none

/-- The boolean that a value is. -/
def asBool : GoValue → Option Bool
  | .bool b => some b
  | _ => none

/-- The maps that a value is a slice of. -/
def asMaps : GoValue → Option (List Entries)
  | .slice elems => castToMapSlice elems
  | _ => none

/-- The strings that a field enters into the table of its key. -/
def newStrings (dataType : DataType) (value : Option GoValue) : List String :=
  if dataType = .string then ((value.bind asString).map marked).toList else []

/-- The maps that a field enters into the table of its key. -/
def newMaps (dataType : DataType) (value : Option GoValue) : List Entries :=
  if dataType = .sliceOfMaps then ((value.bind asMaps).getD []).map markedMap else []

/-- A slice of at most 255 maps with legal keys. -/
def SliceFits (dataType : DataType) (value : Option GoValue) : Prop :=
  dataType = .sliceOfMaps → ∀ mapSlice, value.bind asMaps = some mapSlice →
    mapSlice.length ≤ 255 ∧ ∀ valueMap ∈ mapSlice, KeysLegal valueMap

/-- A number other than the marker. -/
def readNumber (bits : UInt64) : Option GoValue :=
  if GoValue.floatEq bits missingFloatMarker then none else some (.float64 bits)

/-- The marker of a missing float is no number. -/
theorem readNumber_marker : readNumber missingFloatMarker = none := by decide

/-- Eight bytes decode to their float. -/
theorem decodeSingleFloat64_bits (bits : UInt64) (rest : Buffer) :
    KeyDecoder.decodeSingleFloat64 (bigEndian bits ++ rest) = some (readNumber bits, rest) := by
  rw [KeyDecoder.decodeSingleFloat64, readBytesIntoBuffer_append _ _ (length_bigEndian bits),
    Option.map_some]
  dsimp only
  rw [fromBigEndian_bigEndian, UInt64.ofNat_toNat]
  rfl

/-- Maps that stand for the maps of a slice. -/
def StandFor (mapSlice decoded : List Entries) : Prop :=
  List.Forall₂ (fun valueMap found => found = markedMap valueMap ∨
    sameMap (markedMap valueMap) found = true) mapSlice decoded

/-- What a field of a type is decoded as: a number, string or boolean as itself, illegal strings
as a marker, a slice as maps that are deeply equal to its own, and everything else as
missing. -/
def Decoded (dataType : DataType) (value decoded : Option GoValue) : Prop :=
  match dataType with
  | .float64 => decoded = (value.bind castToFloat).bind readNumber
  | .string => decoded = (value.bind asString).map fun s => .string (marked s)
  | .bool => decoded = (value.bind asBool).map .bool
  | .sliceOfMaps =>
    if (value.bind asMaps).getD [] = [] then decoded = none
    else ∃ maps, decoded = some (.slice (maps.map .map)) ∧
      StandFor ((value.bind asMaps).getD []) maps

namespace KeyMetadata

/-- The enumerations of a key stand for tables of legal strings and maps. -/
structure Tabled (keyMeta : KeyMetadata) (strings : List String) (maps : List Entries) : Prop where
  stringEnums : keyMeta.stringEnums = stringTable strings
  mapEnums : keyMeta.mapEnums = numbered maps
  legalStrings : ∀ s ∈ strings, containsIllegal s = false
  legalMaps : ∀ m ∈ maps, Legal m

/-- A new key has empty tables. -/
theorem fresh_tabled (key : String) (dataType : DataType) : (fresh key dataType).Tabled [] [] where
  stringEnums := rfl
  mapEnums := rfl
  legalStrings := fun _ hs => absurd hs List.not_mem_nil
  legalMaps := fun _ hm => absurd hm List.not_mem_nil

end KeyMetadata

/-- The maps of a slice are numbered one after the other, and each number leads to a map that
stands for it in every longer table. -/
theorem encodeAll_maps {maps : List Entries} (hlegal : ∀ m ∈ maps, Legal m)
    {mapSlice : List Entries} (hkeys : ∀ valueMap ∈ mapSlice, KeysLegal valueMap)
    (hlen : (enterAll sameMap maps (mapSlice.map markedMap)).length ≤ 255) :
    ∃ bytes, MapEncoder.encodeAll (numbered maps) mapSlice =
        (bytes, numbered (enterAll sameMap maps (mapSlice.map markedMap))) ∧
      bytes.length = mapSlice.length ∧
      (∀ m ∈ enterAll sameMap maps (mapSlice.map markedMap), Legal m) ∧
      ∀ decoder : KeyDecoder,
        enterAll sameMap maps (mapSlice.map markedMap) <+: decoder.mapDecoder →
        ∃ found, decoder.decodeMaps bytes = some (found.map .map) ∧ StandFor mapSlice found := by
  induction mapSlice generalizing maps with
  | nil => exact ⟨[], rfl, rfl, hlegal, fun decoder _ => ⟨[], rfl, .nil⟩⟩
  | cons valueMap rest ih =>
    rw [List.map_cons, enterAll_cons] at hlen ⊢
    have hkey := hkeys valueMap List.mem_cons_self
    have hnext : (enter sameMap maps (markedMap valueMap)).length ≤ 255 :=
      length_le_enterAll.trans hlen
    have htable : maps.length ≤ 255 := prefix_enter.length_le.trans hnext
    obtain ⟨bytes, hbytes, hlength, hall, hdecode⟩ := ih (legal_enter_map hlegal hkey)
      (fun m hm => hkeys m (List.mem_cons_of_mem _ hm)) hlen
    refine ⟨number sameMap maps (markedMap valueMap) :: bytes, ?_, ?_, hall, ?_⟩
    · rw [MapEncoder.encodeAll, encode_map htable hlegal hkey]
      dsimp only
      rw [hbytes]
    · rw [List.length_cons, List.length_cons, hlength]
    · intro decoder hprefix
      obtain ⟨found, hfound, hstand⟩ := hdecode decoder hprefix
      obtain ⟨hzero, b, hb, hle, hsame⟩ := number_found hnext
      have hwhole := prefix_enterAll.trans hprefix
      have hget := getElem?_of_prefix hwhole hb
      refine ⟨b :: found, ?_, .cons hsame hstand⟩
      have hreach : ¬ (number sameMap maps (markedMap valueMap) = 0 ∨
          decoder.mapDecoder.length < (number sameMap maps (markedMap valueMap)).toNat) := by
        have := hwhole.length_le
        rintro (h | h)
        · exact hzero h
        · omega
      rw [KeyDecoder.decodeMaps, if_neg hreach, hget, hfound]
      rfl

namespace KeyMetadata

variable {keyMeta : KeyMetadata} {strings : List String} {maps : List Entries}

/-- A float is written as its bytes, a missing one as the marker. -/
theorem addValue_float64 (h : keyMeta.dataType = .float64) (value : Option GoValue) :
    keyMeta.addValue value =
      (((value.bind castToFloat).map bigEndian).getD (bigEndian missingFloatMarker), keyMeta) := by
  obtain ⟨key, dataType, stringEnums, mapEnums⟩ := keyMeta
  cases h
  cases value with
  | none => rfl
  | some v => cases v <;> rfl

/-- A bool is written as one byte. -/
theorem addValue_bool (h : keyMeta.dataType = .bool) (value : Option GoValue) :
    keyMeta.addValue value =
      ([((value.bind asBool).map boolByte).getD missingBoolMarker], keyMeta) := by
  obtain ⟨key, dataType, stringEnums, mapEnums⟩ := keyMeta
  cases h
  cases value with
  | none => rfl
  | some v => cases v <;> rfl

variable {value : Option GoValue}

/-- A missing text is written as zero. -/
theorem addValue_no_string (h : keyMeta.dataType = .string) (hnone : value.bind asString = none) :
    keyMeta.addValue value = ([0], keyMeta) := by
  obtain ⟨key, dataType, stringEnums, mapEnums⟩ := keyMeta
  cases h
  cases value with
  | none => rfl
  | some v =>
    cases v with
    | string s => cases hnone
    | _ => rfl

/-- A text is written as its number. -/
theorem addValue_string (h : keyMeta.dataType = .string) {s : String}
    (hsome : value.bind asString = some s) :
    keyMeta.addValue value = ([(keyMeta.stringEnums.encode s).1],
      { keyMeta with stringEnums := (keyMeta.stringEnums.encode s).2 }) := by
  obtain ⟨key, dataType, stringEnums, mapEnums⟩ := keyMeta
  cases h
  cases value with
  | none => cases hsome
  | some v =>
    cases v with
    | string t =>
      cases hsome
      rfl
    | _ => cases hsome

/-- A missing slice of maps is written as zero. -/
theorem addValue_no_maps (h : keyMeta.dataType = .sliceOfMaps)
    (hnone : (value.bind asMaps).getD [] = []) : keyMeta.addValue value = ([0], keyMeta) := by
  obtain ⟨key, dataType, stringEnums, mapEnums⟩ := keyMeta
  cases h
  cases value with
  | none => rfl
  | some v =>
    cases v with
    | slice elems =>
      cases elems with
      | nil => rfl
      | cons first rest =>
        cases hcast : castToMapSlice (first :: rest) with
        | none => simp [addValue, encodeLater, hcast, missingDataMarker]
        | some mapSlice =>
          rw [Option.bind_some, asMaps, hcast, Option.getD_some] at hnone
          subst hnone
          cases first with
          | map entries =>
            obtain ⟨tail, -, htail⟩ := Option.map_eq_some_iff.mp hcast
            cases htail
          | _ => cases hcast
    | _ => rfl

/-- A slice of maps is written as its numbers. -/
theorem addValue_maps (h : keyMeta.dataType = .sliceOfMaps) {mapSlice : List Entries}
    (hsome : value.bind asMaps = some mapSlice) (hne : mapSlice ≠ []) :
    keyMeta.addValue value = ((keyMeta.mapEnums.encodeSlice mapSlice).1,
      { keyMeta with mapEnums := (keyMeta.mapEnums.encodeSlice mapSlice).2 }) := by
  obtain ⟨key, dataType, stringEnums, mapEnums⟩ := keyMeta
  cases h
  cases value with
  | none => cases hsome
  | some v =>
    cases v with
    | slice elems =>
      rw [Option.bind_some, asMaps] at hsome
      cases elems with
      | nil =>
        cases hsome
        exact absurd rfl hne
      | cons first rest => simp [addValue, encodeLater, hsome]
    | _ => cases hsome

/-- A value leaves the key and its type. -/
theorem addValue_kept (keyMeta : KeyMetadata) (value : Option GoValue) :
    (keyMeta.addValue value).2.key = keyMeta.key ∧
      (keyMeta.addValue value).2.dataType = keyMeta.dataType := by
  cases htype : keyMeta.dataType with
  | float64 =>
    rw [addValue_float64 htype]
    exact ⟨rfl, htype⟩
  | bool =>
    rw [addValue_bool htype]
    exact ⟨rfl, htype⟩
  | string =>
    cases hs : value.bind asString with
    | none =>
      rw [addValue_no_string htype hs]
      exact ⟨rfl, htype⟩
    | some s =>
      rw [addValue_string htype hs]
      exact ⟨rfl, htype⟩
  | sliceOfMaps =>
    by_cases hnone : (value.bind asMaps).getD [] = []
    · rw [addValue_no_maps htype hnone]
      exact ⟨rfl, htype⟩
    · cases hm : value.bind asMaps with
      | none =>
        rw [hm] at hnone
        exact absurd rfl hnone
      | some mapSlice =>
        rw [hm] at hnone
        rw [addValue_maps htype hm hnone]
        exact ⟨rfl, htype⟩

/-- A decoder of a key whose tables continue the given ones. -/
structure Continues (keyMeta : KeyMetadata) (strings : List String) (maps : List Entries)
    (decoder : KeyDecoder) : Prop where
  key : decoder.key = keyMeta.key
  dataType : decoder.dataType = keyMeta.dataType.text
  strings : strings <+: decoder.stringDecoder
  maps : maps <+: decoder.mapDecoder

/-- A field is decoded from its bytes by every decoder whose tables continue those of its key
after it, and the enumerations stand for these. -/
theorem Tabled.addValue (h : keyMeta.Tabled strings maps) (hfits : SliceFits keyMeta.dataType value)
    (hstrings : (enterAll sameString strings (newStrings keyMeta.dataType value)).length ≤ 255)
    (hmaps : (enterAll sameMap maps (newMaps keyMeta.dataType value)).length ≤ 255) :
    (keyMeta.addValue value).2.Tabled
        (enterAll sameString strings (newStrings keyMeta.dataType value))
        (enterAll sameMap maps (newMaps keyMeta.dataType value)) ∧
      ∀ decoder, keyMeta.Continues (enterAll sameString strings (newStrings keyMeta.dataType value))
          (enterAll sameMap maps (newMaps keyMeta.dataType value)) decoder →
        ∃ decoded, Decoded keyMeta.dataType value decoded ∧ ∀ rest,
          decoder.decodeSingle ((keyMeta.addValue value).1 ++ rest) = some (decoded, rest) := by
  cases htype : keyMeta.dataType with
  | float64 =>
    rw [addValue_float64 htype]
    refine ⟨h, fun decoder hdecoder => ⟨_, rfl, fun rest => ?_⟩⟩
    have hkind : decoder.dataType = "float64" := by rw [hdecoder.dataType, htype, DataType.text]
    rw [KeyDecoder.decodeSingle, if_pos hkind]
    cases value.bind castToFloat with
    | none =>
      rw [Option.map_none, Option.getD_none, decodeSingleFloat64_bits, readNumber_marker]
      rfl
    | some bits =>
      rw [Option.map_some, Option.getD_some, decodeSingleFloat64_bits]
      rfl
  | bool =>
    rw [addValue_bool htype]
    refine ⟨h, fun decoder hdecoder => ⟨_, rfl, fun rest => ?_⟩⟩
    have hkind : decoder.dataType = "bool" := by rw [hdecoder.dataType, htype, DataType.text]
    rw [KeyDecoder.decodeSingle, hkind, if_neg (by decide), if_pos rfl]
    cases value.bind asBool with
    | none => rfl
    | some b => cases b <;> rfl
  | string =>
    have hnoMaps : newMaps .string value = [] := if_neg (by decide)
    rw [hnoMaps, enterAll_nil]
    have hkind : ∀ decoder, keyMeta.Continues
        (enterAll sameString strings (newStrings .string value)) maps decoder →
          decoder.dataType = "string" := fun decoder hdecoder => by
      rw [hdecoder.dataType, htype, DataType.text]
    cases hs : value.bind asString with
    | none =>
      have hnone : newStrings .string value = [] := by rw [newStrings, if_pos rfl, hs]; rfl
      rw [addValue_no_string htype hs]
      rw [hnone, enterAll_nil] at hkind ⊢
      refine ⟨h, fun decoder hdecoder => ⟨none, ?_, fun rest => ?_⟩⟩
      · rw [Decoded, hs]
        rfl
      · rw [KeyDecoder.decodeSingle, hkind decoder hdecoder, if_neg (by decide),
          if_neg (by decide), if_pos rfl, List.singleton_append, KeyDecoder.decodeSingleString,
          if_neg (by simp)]
        rfl
    | some s =>
      have hone : newStrings .string value = [marked s] := by rw [newStrings, if_pos rfl, hs]; rfl
      rw [htype] at hstrings
      rw [addValue_string htype hs, h.stringEnums, encode_string h.legalStrings]
      rw [hone, enterAll_cons, enterAll_nil] at hstrings hkind ⊢
      refine ⟨⟨rfl, h.mapEnums, legal_enter h.legalStrings s, h.legalMaps⟩, fun decoder hdecoder =>
        ⟨some (.string (marked s)), ?_, fun rest => ?_⟩⟩
      · rw [Decoded, hs]
        rfl
      · obtain ⟨hzero, b, hb, hle, hsame⟩ := number_found hstrings
        have hbs : b = marked s := hsame.elim id fun hsame => (beq_iff_eq.mp hsame).symm
        have hreach := not_lt.mpr (hle.trans hdecoder.strings.length_le)
        rw [KeyDecoder.decodeSingle, hkind decoder hdecoder, if_neg (by decide),
          if_neg (by decide), if_pos rfl, List.singleton_append, KeyDecoder.decodeSingleString,
          if_neg hreach, if_neg hzero, getElem?_of_prefix hdecoder.strings hb, hbs]
        rfl
  | sliceOfMaps =>
    have hnoStrings : newStrings .sliceOfMaps value = [] := if_neg (by decide)
    rw [hnoStrings, enterAll_nil]
    have hkind : ∀ decoder, keyMeta.Continues strings
        (enterAll sameMap maps (newMaps .sliceOfMaps value)) decoder →
          decoder.dataType = DataType.sliceOfMaps.text := fun decoder hdecoder => by
      rw [hdecoder.dataType, htype]
    by_cases hempty : (value.bind asMaps).getD [] = []
    · have hnone : newMaps .sliceOfMaps value = [] := by
        rw [newMaps, if_pos rfl, hempty]
        rfl
      rw [addValue_no_maps htype hempty]
      rw [hnone, enterAll_nil] at hkind ⊢
      refine ⟨h, fun decoder hdecoder => ⟨none, ?_, fun rest => ?_⟩⟩
      · rw [Decoded, if_pos hempty]
      · rw [KeyDecoder.decodeSingle, hkind decoder hdecoder, if_neg (by decide),
          if_neg (by decide), if_neg (by decide), if_pos rfl]
        rfl
    · obtain ⟨mapSlice, hm⟩ : ∃ mapSlice, value.bind asMaps = some mapSlice := by
        cases hm : value.bind asMaps with
        | none =>
          rw [hm] at hempty
          exact absurd rfl hempty
        | some mapSlice => exact ⟨mapSlice, rfl⟩
      have hmany : newMaps .sliceOfMaps value = mapSlice.map markedMap := by
        rw [newMaps, if_pos rfl, hm]
        rfl
      rw [hm, Option.getD_some] at hempty
      rw [htype, hmany] at hmaps
      obtain ⟨hlength, hkeys⟩ := hfits htype mapSlice hm
      obtain ⟨bytes, hbytes, hbyteLen, hlegal, hdecode⟩ := encodeAll_maps h.legalMaps hkeys hmaps
      rw [addValue_maps htype hm hempty, h.mapEnums, MapEncoder.encodeSlice, hbytes]
      rw [hmany] at hkind ⊢
      refine ⟨⟨h.stringEnums, rfl, h.legalStrings, hlegal⟩, fun decoder hdecoder => ?_⟩
      obtain ⟨found, hfound, hstand⟩ := hdecode decoder hdecoder.maps
      refine ⟨some (.slice (found.map .map)), ?_, fun rest => ?_⟩
      · rw [Decoded, hm, Option.getD_some, if_neg hempty]
        exact ⟨found, rfl, hstand⟩
      · have hpos := List.length_pos_of_ne_nil hempty
        rw [KeyDecoder.decodeSingle, hkind decoder hdecoder, if_neg (by decide),
          if_neg (by decide), if_neg (by decide), if_pos rfl, List.cons_append,
          KeyDecoder.decodeSingleMapSlice, if_neg (byte_ne_zero (by omega) (by omega)),
          byte_toNat (by omega), readBytesIntoBuffer_append bytes rest rfl, Option.bind_some]
        dsimp only
        rw [hfound]
        rfl

end KeyMetadata

end HybridOs.FimsCodec
