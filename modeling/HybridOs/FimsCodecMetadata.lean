import HybridOs.FimsCodec
import HybridOs.GoText

/-!
# Archives that are not sound

Metadata and data files come from anywhere: cut short, corrupted or empty. Reading them ends with
data or with an error, or it indexes out of range and panics. A text is the list of its bytes,
each as a character.
-/

namespace HybridOs.FimsCodec

/-! ## Indexing -/

/-- Why nothing is returned. -/
inductive Stop where
  /-- An error is. -/
  | failed
  /-- An index or a slice is out of range. -/
  | panicked
  deriving DecidableEq

/-- `xs[i]`. -/
def index {α : Type} (xs : List α) (i : ℕ) : Except Stop α :=
  match xs[i]? with
  | some x => .ok x
  | none => .error .panicked

/-- `xs[i:]`. -/
def sliceFrom {α : Type} (xs : List α) (i : ℕ) : Except Stop (List α) :=
  if i ≤ xs.length then .ok (xs.drop i) else .error .panicked

/-- What has failed, or the data. -/
def orFailed {α : Type} : Option α → Except Stop α
  | some data => .ok data
  | none => .error .failed

/-- Data or an error is returned. -/
def Answers {α : Type} (result : Except Stop α) : Prop := result ≠ .error .panicked

section Answering

variable {α β : Type} {xs : List α} {i : ℕ} {result : Except Stop α}

/-- An index inside a list has a value. -/
theorem index_eq (hlt : i < xs.length) : index xs i = .ok xs[i] := by
  simp [index, hlt]

/-- A slice from inside a list is the rest of it. -/
theorem sliceFrom_eq (hle : i ≤ xs.length) : sliceFrom xs i = .ok (xs.drop i) := by
  simp [sliceFrom, hle]

/-- A result is an answer. -/
theorem answers_ok (data : α) : Answers (.ok data : Except Stop α) := by
  simp [Answers]

/-- So is an error. -/
theorem answers_failed : Answers (.error .failed : Except Stop α) := by
  simp [Answers]

/-- A missing result is an error, no panic. -/
theorem answers_orFailed (data : Option α) : Answers (orFailed data) := by
  cases data <;> simp [Answers, orFailed]

/-- Two steps answer where the second answers every result of the first. -/
theorem answers_bind {next : α → Except Stop β} (hresult : Answers result)
    (hnext : ∀ data, result = .ok data → Answers (next data)) : Answers (result.bind next) := by
  cases result with
  | ok data => exact hnext data rfl
  | error stop =>
    intro hpanicked
    rw [Except.bind, Except.error.injEq] at hpanicked
    exact hresult (by rw [hpanicked])

/-- A changed result is an answer where the result is. -/
theorem answers_map_iff {f : α → β} : Answers (result.map f) ↔ Answers result := by
  cases result <;> simp [Answers, Except.map]

end Answering

/-! ## Stringified maps -/

/-- The encodings of white space. -/
def whiteSpaces : List (List Char) :=
  ['\t', '\n', '\x0b', '\x0c', '\r', ' '].map ([·]) ++
    ['\x85', '\xa0'].map (['\xc2', ·]) ++ [['\xe1', '\x9a', '\x80']] ++
    ['\x80', '\x81', '\x82', '\x83', '\x84', '\x85', '\x86', '\x87', '\x88', '\x89', '\x8a', '\xa8',
      '\xa9', '\xaf'].map (['\xe2', '\x80', ·]) ++
    [['\xe2', '\x81', '\x9f'], ['\xe3', '\x80', '\x80']]

/-- A text without what it begins with, at most the given number of times. -/
def trimStart (trimmed : List (List Char)) : ℕ → List Char → List Char
  | 0, text => text
  | n + 1, text =>
    match trimmed.find? (·.isPrefixOf text) with
    | some begun => trimStart trimmed n (text.drop begun.length)
    | none => text

/-- `strings.TrimSpace`. -/
def trimSpace (text : List Char) : List Char :=
  let begun := trimStart whiteSpaces text.length text
  (trimStart (whiteSpaces.map List.reverse) begun.length begun.reverse).reverse

/-- `strings.SplitN` into two parts at most, at one character. -/
def splitInTwo (separator : Char) (text : List Char) : List (List Char) :=
  match text.span (· ≠ separator) with
  | (before, _ :: after) => [before, after]
  | (before, []) => [before]

/-- `strings.TrimPrefix`, of one character. -/
def trimPrefix (begun : Char) : List Char → List Char
  | c :: text => if c = begun then text else c :: text
  | [] => []

/-- `strconv.ParseBool`. -/
def parseBool (text : String) : Option Bool :=
  if text ∈ ["1", "t", "T", "TRUE", "true", "True"] then some true
  else if text ∈ ["0", "f", "F", "FALSE", "false", "False"] then some false
  else none

section Metadata

variable (parseFloat : String → Option UInt64)

/-- A value of a stringified map. -/
def parseValue (dataType dataValueStringified : String) : Option GoValue :=
  if dataType = "string" then some (.string dataValueStringified)
  else if dataType = "bool" then (parseBool dataValueStringified).map .bool
  else (parseFloat dataValueStringified).map .float64

/-- One element of a stringified map. -/
def parseElement (parsedMap : Entries) (element : List Char) : Except Stop Entries :=
  let stringifiedMapElement := trimSpace element
  if stringifiedMapElement.length = 0 then .error .failed
  else
    let keyMetadataPair := splitInTwo ':' stringifiedMapElement
    if keyMetadataPair.length ≠ 2 then .error .failed
    else
      (index keyMetadataPair 0).bind fun keyInMap =>
      (index keyMetadataPair 1).bind fun typeAndValueConcatenated =>
      let typeAndValueSplit := splitInTwo ')' (trimPrefix '(' typeAndValueConcatenated)
      if typeAndValueSplit.length ≠ 2 then .error .failed
      else
        (index typeAndValueSplit 0).bind fun dataType =>
        (index typeAndValueSplit 1).bind fun dataValueStringified =>
        (orFailed (parseValue parseFloat (.ofList dataType) (.ofList dataValueStringified))).map
          (parsedMap.write (.ofList keyInMap))

/-- `parseStringifiedMap`, over the elements that are left. -/
def parseElements : Entries → List (List Char) → Except Stop Entries
  | parsedMap, [] => .ok parsedMap
  | parsedMap, element :: elements =>
    (parseElement parseFloat parsedMap element).bind (parseElements · elements)

/-- `parseStringifiedMap`. -/
def parseStringifiedMap (stringifiedMap : List Char) : Except Stop Entries :=
  parseElements parseFloat [] (GoText.split [';'] stringifiedMap)

/-! ## Metadata -/

/-- The lines of enumerations up to the next line of a key, each of them read. -/
def readEnumerations {α : Type} (read : List Char → Except Stop α) :
    List (List Char) → Except Stop (List α × List (List Char))
  -- The loop asks for the number of lines first.
  | [] => .ok ([], [])
  | line :: lines =>
    if GoText.contains line ['\t'] then .ok ([], line :: lines)
    else
      (read line).bind fun value =>
        (readEnumerations read lines).map fun (values, rest) => (value :: values, rest)

/-- The decoder of a key and the lines after its enumerations. -/
def readKeyDecoder (key dataType : String) (lines : List (List Char)) :
    Except Stop (KeyDecoder × List (List Char)) :=
  if dataType = "string" then
    (readEnumerations (fun line => .ok (.ofList line)) lines).map fun (stringDecoder, rest) =>
      (⟨key, dataType, [], stringDecoder⟩, rest)
  else if dataType = DataType.sliceOfMaps.text then
    (readEnumerations (parseStringifiedMap parseFloat) lines).map fun (mapDecoder, rest) =>
      (⟨key, dataType, mapDecoder, []⟩, rest)
  else .ok (⟨key, dataType, [], []⟩, lines)

/-- Reading enumerations takes lines away and adds none. -/
theorem readEnumerations_length {α : Type} {read : List Char → Except Stop α}
    {lines rest : List (List Char)} {values : List α}
    (hread : readEnumerations read lines = .ok (values, rest)) : rest.length ≤ lines.length := by
  induction lines generalizing values with
  | nil =>
    simp only [readEnumerations, Except.ok.injEq, Prod.mk.injEq] at hread
    simp [← hread.2]
  | cons line lines ih =>
    rw [readEnumerations] at hread
    split at hread
    · simp only [Except.ok.injEq, Prod.mk.injEq] at hread
      simp [← hread.2]
    · cases hvalue : read line with
      | error stop => simp [hvalue, Except.bind] at hread
      | ok value =>
        cases hvalues : readEnumerations read lines with
        | error stop => simp [hvalue, hvalues, Except.bind, Except.map] at hread
        | ok found =>
          have hrest : found.2 = rest := by
            simp only [hvalue, hvalues, Except.bind, Except.map, Except.ok.injEq,
              Prod.mk.injEq] at hread
            exact hread.2
          have hfound : readEnumerations read lines = .ok (found.1, rest) := by
            rw [hvalues, ← hrest]
          have hle := ih hfound
          rw [List.length_cons]
          omega

/-- Neither does reading the decoder of a key. -/
theorem readKeyDecoder_length {key dataType : String} {lines : List (List Char)}
    {read : KeyDecoder × List (List Char)}
    (hread : readKeyDecoder parseFloat key dataType lines = .ok read) :
    read.2.length ≤ lines.length := by
  unfold readKeyDecoder at hread
  split at hread
  · cases henum : readEnumerations (fun line => Except.ok (String.ofList line)) lines with
    | error stop => simp [henum, Except.map] at hread
    | ok found =>
      simp only [henum, Except.map, Except.ok.injEq] at hread
      rw [← hread]
      exact readEnumerations_length henum
  split at hread
  · cases henum : readEnumerations (parseStringifiedMap parseFloat) lines with
    | error stop => simp [henum, Except.map] at hread
    | ok found =>
      simp only [henum, Except.map, Except.ok.injEq] at hread
      rw [← hread]
      exact readEnumerations_length henum
  · rw [Except.ok.injEq] at hread
    simp [← hread]

/-- The lines of the keys. -/
def readKeys : List (List Char) → Except Stop (List KeyDecoder)
  | [] => .ok []
  | line :: lines =>
    let keyTypePair := GoText.split ['\t'] line
    if keyTypePair.length ≠ 2 then .error .failed
    else
      (index keyTypePair 0).bind fun key =>
      (index keyTypePair 1).bind fun dataType =>
      match _hread : readKeyDecoder parseFloat (.ofList key) (.ofList dataType) lines with
      | .error stop => .error stop
      | .ok read => (readKeys read.2).map (read.1 :: ·)
  termination_by lines => lines.length
  decreasing_by exact Nat.lt_succ_of_le (readKeyDecoder_length parseFloat _hread)

/-- The lines of additional data, up to an empty one. -/
def readAdditionalData : List (List Char) → List (String × String) →
    Except Stop (List (String × String) × List (List Char))
  -- The loop reads the first line before it asks for the number of lines.
  | [], _ => .error .panicked
  | line :: lines, additionalData =>
    if line.length = 0 then .ok (additionalData, line :: lines)
    else
      let keyValuePair := GoText.split [':'] line
      if keyValuePair.length ≠ 2 then .error .failed
      else
        (index keyValuePair 0).bind fun key =>
        (index keyValuePair 1).bind fun value =>
        readAdditionalData lines
          (additionalData.filter (·.1 ≠ .ofList key) ++ [(.ofList key, .ofList value)])

/-- What `readMetadata` returns. -/
structure Metadata where
  uri : String
  decoders : List KeyDecoder
  additionalData : List (String × String)

/-- `readMetadata`. -/
def readMetadata (concatenatedMetadata : List Char) : Except Stop Metadata :=
  let metadataFileLines := GoText.split ['\n'] concatenatedMetadata
  if metadataFileLines.length = 1 then .error .failed
  else
    (index metadataFileLines 0).bind fun uri =>
    (sliceFrom metadataFileLines 1).bind fun metadataFileLines =>
    (readAdditionalData metadataFileLines []).bind fun (additionalData, metadataFileLines) =>
    if metadataFileLines.length < 2 then .error .failed
    else
      (sliceFrom metadataFileLines 1).bind fun metadataFileLines =>
      (readKeys parseFloat metadataFileLines).map fun decoders =>
        ⟨.ofList uri, decoders, additionalData⟩

end Metadata

/-! ## Data files -/

namespace KeyDecoder

/-- `decodeSingleFloat64FromBufferToMap`. -/
def decodeSingleFloat64FromBufferToMap (decoder : KeyDecoder) (dataBuffer : Buffer)
    (destinationMap : Entries) : Except Stop (Entries × Buffer) :=
  (orFailed (readBytesIntoBuffer dataBuffer 8)).bind fun (float64AsBytes, rest) =>
  -- `Uint64` asks for the last byte first.
  (index float64AsBytes 7).map fun _ =>
    let floatBits := UInt64.ofNat (fromBigEndian float64AsBytes)
    (if GoValue.floatEq floatBits missingFloatMarker then destinationMap
      else destinationMap.write decoder.key (.float64 floatBits), rest)

/-- `decodeSingleBoolFromBufferToMap`. -/
def decodeSingleBoolFromBufferToMap (decoder : KeyDecoder) (dataBuffer : Buffer)
    (destinationMap : Entries) : Except Stop (Entries × Buffer) :=
  match dataBuffer with
  | [] => .error .failed
  | boolByte :: rest =>
    if boolByte = 0 then .ok (destinationMap.write decoder.key (.bool false), rest)
    else if boolByte = 1 then .ok (destinationMap.write decoder.key (.bool true), rest)
    else .ok (destinationMap, rest)

/-- `decodeSingleStringFromBufferToMap`. -/
def decodeSingleStringFromBufferToMap (decoder : KeyDecoder) (dataBuffer : Buffer)
    (destinationMap : Entries) : Except Stop (Entries × Buffer) :=
  match dataBuffer with
  | [] => .error .failed
  | enumeration :: rest =>
    if decoder.stringDecoder.length < enumeration.toNat then .error .failed
    else if enumeration ≠ 0 then
      (index decoder.stringDecoder (enumeration - 1).toNat).map fun value =>
        (destinationMap.write decoder.key (.string value), rest)
    else .ok (destinationMap, rest)

/-- The loop over the enumerations of a slice of maps. -/
def readMaps (decoder : KeyDecoder) : List UInt8 → Except Stop (List GoValue)
  | [] => .ok []
  | mapEnum :: mapEnums =>
    if mapEnum = 0 ∨ decoder.mapDecoder.length < mapEnum.toNat then .error .failed
    else
      (index decoder.mapDecoder (mapEnum - 1).toNat).bind fun entries =>
      (decoder.readMaps mapEnums).map (.map entries :: ·)

/-- `decodeSingleMapSliceFromBufferToMap`. -/
def decodeSingleMapSliceFromBufferToMap (decoder : KeyDecoder) (dataBuffer : Buffer)
    (destinationMap : Entries) : Except Stop (Entries × Buffer) :=
  (orFailed (readBytesIntoBuffer dataBuffer 1)).bind fun (numEnumerationsBuffer, rest) =>
  (index numEnumerationsBuffer 0).bind fun numEnumerations =>
  if numEnumerations = 0 then .ok (destinationMap, rest)
  else
    (orFailed (readBytesIntoBuffer rest numEnumerations.toNat)).bind fun (mapEnums, rest) =>
    (decoder.readMaps mapEnums).map fun sliceOfMaps =>
      (destinationMap.write decoder.key (.slice sliceOfMaps), rest)

/-- The value of one key, put into the map. -/
def decodeSingleToMap (decoder : KeyDecoder) (dataBuffer : Buffer) (destinationMap : Entries) :
    Except Stop (Entries × Buffer) :=
  if decoder.dataType = "float64" then
    decoder.decodeSingleFloat64FromBufferToMap dataBuffer destinationMap
  else if decoder.dataType = "bool" then
    decoder.decodeSingleBoolFromBufferToMap dataBuffer destinationMap
  else if decoder.dataType = "string" then
    decoder.decodeSingleStringFromBufferToMap dataBuffer destinationMap
  else if decoder.dataType = DataType.sliceOfMaps.text then
    decoder.decodeSingleMapSliceFromBufferToMap dataBuffer destinationMap
  else .error .failed

/-- A value that a decoder has read, put into the map. -/
def putInto (decoder : KeyDecoder) (destinationMap : Entries) (read : Option GoValue × Buffer) :
    Entries × Buffer :=
  (read.1.elim destinationMap (destinationMap.write decoder.key), read.2)

/-- As many bytes are read as were asked for. -/
theorem readBytesIntoBuffer_length {sourceBuff rest : Buffer} {n : ℕ} {bytes : List UInt8}
    (hread : readBytesIntoBuffer sourceBuff n = some (bytes, rest)) : bytes.length = n := by
  unfold readBytesIntoBuffer at hread
  split at hread
  · rename_i hle
    simp only [Option.some.injEq, Prod.mk.injEq] at hread
    rw [← hread.1, List.length_take]
    omega
  · simp at hread

variable (decoder : KeyDecoder) (dataBuffer : Buffer) (destinationMap : Entries)

/-- Decoding a float into the map fails where the bytes do not suffice. -/
theorem decodeSingleFloat64FromBufferToMap_eq :
    decoder.decodeSingleFloat64FromBufferToMap dataBuffer destinationMap =
      orFailed ((decodeSingleFloat64 dataBuffer).map (decoder.putInto destinationMap)) := by
  unfold decodeSingleFloat64FromBufferToMap decodeSingleFloat64
  cases hread : readBytesIntoBuffer dataBuffer 8 with
  | none => simp [orFailed, Except.bind]
  | some read =>
    have hlength : 7 < read.1.length := by
      rw [readBytesIntoBuffer_length hread]
      omega
    simp only [orFailed, Except.bind, index_eq hlength, Except.map, Option.map_some, putInto]
    split
    · simp
    · simp

/-- So does decoding a bool. -/
theorem decodeSingleBoolFromBufferToMap_eq :
    decoder.decodeSingleBoolFromBufferToMap dataBuffer destinationMap =
      orFailed ((decodeSingleBool dataBuffer).map (decoder.putInto destinationMap)) := by
  cases dataBuffer with
  | nil => simp [decodeSingleBoolFromBufferToMap, decodeSingleBool, orFailed]
  | cons boolByte rest =>
    simp only [decodeSingleBoolFromBufferToMap, decodeSingleBool, orFailed, Option.map_some,
      putInto]
    split
    · simp
    split
    · simp
    · simp

/-- The enumeration of a byte that is not zero. -/
theorem enumeration_toNat {enumeration : UInt8} (hne : enumeration ≠ 0) :
    (enumeration - 1).toNat = enumeration.toNat - 1 ∧ 1 ≤ enumeration.toNat := by
  have hpos : enumeration.toNat ≠ 0 := by
    intro hzero
    exact hne (UInt8.toNat_inj.mp (by simpa using hzero))
  have hle : (1 : UInt8) ≤ enumeration := by
    rw [UInt8.le_iff_toNat_le]
    simp only [UInt8.toNat_one]
    omega
  constructor
  · rw [UInt8.toNat_sub_of_le _ _ hle]
    simp
  · omega

/-- A string also fails where its number has no text. -/
theorem decodeSingleStringFromBufferToMap_eq :
    decoder.decodeSingleStringFromBufferToMap dataBuffer destinationMap =
      orFailed ((decoder.decodeSingleString dataBuffer).map (decoder.putInto destinationMap)) := by
  cases dataBuffer with
  | nil => simp [decodeSingleStringFromBufferToMap, decodeSingleString, orFailed]
  | cons enumeration rest =>
    simp only [decodeSingleStringFromBufferToMap, decodeSingleString]
    by_cases hbeyond : decoder.stringDecoder.length < enumeration.toNat
    · simp [hbeyond, orFailed]
    rw [if_neg hbeyond, if_neg hbeyond]
    by_cases hzero : enumeration = 0
    · simp [hzero, orFailed, putInto]
    · obtain ⟨hsub, hpos⟩ := enumeration_toNat hzero
      have hlt : enumeration.toNat - 1 < decoder.stringDecoder.length := by omega
      rw [if_pos hzero, if_neg hzero, hsub, index_eq hlt]
      simp [orFailed, putInto, Except.map, hlt]

/-- The maps of a slice are read one by one, or the decoding fails. -/
theorem readMaps_eq (mapEnums : List UInt8) :
    decoder.readMaps mapEnums = orFailed (decoder.decodeMaps mapEnums) := by
  induction mapEnums with
  | nil => simp [readMaps, decodeMaps, orFailed]
  | cons mapEnum mapEnums ih =>
    rw [readMaps, decodeMaps]
    by_cases hinvalid : mapEnum = 0 ∨ decoder.mapDecoder.length < mapEnum.toNat
    · rw [if_pos hinvalid, if_pos hinvalid, orFailed]
    · rw [not_or] at hinvalid
      obtain ⟨hsub, hpos⟩ := enumeration_toNat hinvalid.1
      have hlt : mapEnum.toNat - 1 < decoder.mapDecoder.length := by omega
      rw [if_neg (by simp [hinvalid]), if_neg (by simp [hinvalid]), hsub, index_eq hlt,
        List.getElem?_eq_getElem hlt, ih]
      cases decoder.decodeMaps mapEnums with
      | none | some maps => simp [orFailed, Except.bind, Except.map]

/-- Decoding a slice of maps fails where its bytes or one of its maps do. -/
theorem decodeSingleMapSliceFromBufferToMap_eq :
    decoder.decodeSingleMapSliceFromBufferToMap dataBuffer destinationMap =
      orFailed ((decoder.decodeSingleMapSlice dataBuffer).map (decoder.putInto destinationMap)) := by
  cases dataBuffer with
  | nil =>
    simp [decodeSingleMapSliceFromBufferToMap, decodeSingleMapSlice, readBytesIntoBuffer, orFailed,
      Except.bind]
  | cons numEnumerations rest =>
    have hread : readBytesIntoBuffer (numEnumerations :: rest) 1 =
        some ([numEnumerations], rest) := by
      simp [readBytesIntoBuffer]
    have hindex : index [numEnumerations] 0 = .ok numEnumerations := by simp [index]
    simp only [decodeSingleMapSliceFromBufferToMap, decodeSingleMapSlice, hread, orFailed,
      Except.bind, hindex]
    split
    · simp [putInto]
    cases readBytesIntoBuffer rest numEnumerations.toNat with
    | none => simp
    | some read =>
      simp only [readMaps_eq, Option.bind_some]
      cases decoder.decodeMaps read.1 with
      | none => simp [orFailed, Except.map]
      | some maps => simp [orFailed, Except.map, putInto]

/-- A decoder does not index out of range: it puts what is read into the map, or it fails. -/
theorem decodeSingleToMap_eq :
    decoder.decodeSingleToMap dataBuffer destinationMap =
      orFailed ((decoder.decodeSingle dataBuffer).map (decoder.putInto destinationMap)) := by
  unfold decodeSingleToMap decodeSingle
  split
  · exact decoder.decodeSingleFloat64FromBufferToMap_eq dataBuffer destinationMap
  split
  · exact decoder.decodeSingleBoolFromBufferToMap_eq dataBuffer destinationMap
  split
  · exact decoder.decodeSingleStringFromBufferToMap_eq dataBuffer destinationMap
  split
  · exact decoder.decodeSingleMapSliceFromBufferToMap_eq dataBuffer destinationMap
  · simp [orFailed]

/-- All keys of a message, put into the map. -/
def decodeKeysToMap : List KeyDecoder → Buffer → Entries → Except Stop (Entries × Buffer)
  | [], dataBuffer, msgBody => .ok (msgBody, dataBuffer)
  | decoder :: decoders, dataBuffer, msgBody =>
    (decoder.decodeSingleToMap dataBuffer msgBody).bind fun (msgBody, rest) =>
      decodeKeysToMap decoders rest msgBody

/-- One message of `decodeFimsMessages`. -/
def decodeFimsMsg (decoders : List KeyDecoder) (dataBuffer : Buffer) :
    Except Stop ((UInt64 × Entries) × Buffer) :=
  (orFailed (readBytesIntoBuffer dataBuffer 8)).bind fun (uint64AsBytes, rest) =>
  (decodeKeysToMap decoders rest []).map fun (msgBody, rest) =>
    ((UInt64.ofNat (fromBigEndian uint64AsBytes), msgBody), rest)

/-- The loop of `decodeFimsMessages`. -/
def decodeFimsMsgs (decoders : List KeyDecoder) :
    ℕ → Buffer → Except Stop (List (UInt64 × Entries) × Buffer)
  | 0, dataBuffer => .ok ([], dataBuffer)
  | numMessages + 1, dataBuffer =>
    (decodeFimsMsg decoders dataBuffer).bind fun (msg, rest) =>
    (decodeFimsMsgs decoders numMessages rest).map fun (msgs, rest) => (msg :: msgs, rest)

/-- `decodeFimsMessages`, of a data file. -/
def decodeDataFile (decoders : List KeyDecoder) (dataBuffer : Buffer) :
    Except Stop (List (UInt64 × Entries)) :=
  -- One byte is enough for `Read` not to fail.
  if dataBuffer.length = 0 then .error .failed
  else
    let numMessagesBuffer := (dataBuffer.take 2 ++ [0, 0]).take 2
    (decodeFimsMsgs decoders (fromBigEndian numMessagesBuffer) (dataBuffer.drop 2)).map Prod.fst

variable (decoders : List KeyDecoder)

/-- The keys of a message are decoded in turn, up to the first that fails. -/
theorem decodeKeysToMap_eq (dataBuffer : Buffer) (msgBody : Entries) :
    decodeKeysToMap decoders dataBuffer msgBody =
      orFailed (decodeKeys decoders dataBuffer msgBody) := by
  induction decoders generalizing dataBuffer msgBody with
  | nil => simp [decodeKeysToMap, decodeKeys, orFailed]
  | cons decoder decoders ih =>
    rw [decodeKeysToMap, decodeKeys, decodeSingleToMap_eq]
    cases decoder.decodeSingle dataBuffer with
    | none => simp [orFailed, Except.bind]
    | some read => simp [orFailed, Except.bind, putInto, ih]

/-- A message is decoded, or the decoding fails. -/
theorem decodeFimsMsg_eq (dataBuffer : Buffer) :
    decodeFimsMsg decoders dataBuffer = orFailed (decodeSingleFimsMsg decoders dataBuffer) := by
  unfold decodeFimsMsg decodeSingleFimsMsg
  cases readBytesIntoBuffer dataBuffer 8 with
  | none => simp [orFailed, Except.bind]
  | some read =>
    simp only [orFailed, Except.bind, decodeKeysToMap_eq, Option.bind_some]
    cases decodeKeys decoders read.2 [] with
    | none | some body => simp [Except.map]

/-- All messages of a file are decoded, or the decoding fails. -/
theorem decodeFimsMsgs_eq (numMessages : ℕ) (dataBuffer : Buffer) :
    decodeFimsMsgs decoders numMessages dataBuffer =
      orFailed (decodeMessages decoders numMessages dataBuffer) := by
  induction numMessages generalizing dataBuffer with
  | zero => simp [decodeFimsMsgs, decodeMessages, orFailed]
  | succ numMessages ih =>
    rw [decodeFimsMsgs, decodeMessages, decodeFimsMsg_eq]
    cases decodeSingleFimsMsg decoders dataBuffer with
    | none => simp [orFailed, Except.bind]
    | some msg =>
      simp only [orFailed, Except.bind, ih, Option.bind_some]
      cases decodeMessages decoders numMessages msg.2 with
      | none | some msgs => simp [Except.map]

/-- A data file is decoded without an index out of range. -/
theorem decodeDataFile_eq (dataBuffer : Buffer) :
    decodeDataFile decoders dataBuffer =
      orFailed ((decodeFimsMessages decoders dataBuffer).map Prod.fst) := by
  unfold decodeDataFile
  rcases dataBuffer with _ | ⟨first, _ | ⟨second, rest⟩⟩
  · simp [decodeFimsMessages, orFailed]
  · simp only [decodeFimsMsgs_eq, decodeFimsMessages]
    simp only [List.take, List.drop,
      List.cons_append, List.nil_append]
    cases decodeMessages decoders (fromBigEndian [first, 0]) [] with
    | none | some msgs => simp [orFailed, Except.map]
  · simp only [decodeFimsMsgs_eq, decodeFimsMessages]
    simp only [List.take,
      List.drop, List.cons_append]
    cases decodeMessages decoders (fromBigEndian [first, second]) rest with
    | none | some msgs => simp [orFailed, Except.map]

end KeyDecoder

/-! ## Archives -/

/-- The text that bytes are. -/
def textOf (bytes : List UInt8) : List Char := bytes.map fun byte => .ofNat byte.toNat

/-- `DecodedData`. -/
structure DecodedData where
  uri : String
  msgs : List (UInt64 × Entries)
  additionalData : List (String × String)

/-- The messages of the data files, in the order in which the map gives them. -/
def decodeFiles (decoders : List KeyDecoder) :
    List (String × Buffer) → Except Stop (List (UInt64 × Entries))
  | [] => .ok []
  | (_, dataBuffer) :: files =>
    (KeyDecoder.decodeDataFile decoders dataBuffer).bind fun msgs =>
    (decodeFiles decoders files).map (msgs ++ ·)

/-- `decodeFrom`, with the files of the archive if they can be extracted. -/
def decodeFrom (parseFloat : String → Option UInt64) (extracted : Option (List (String × Buffer))) :
    Except Stop DecodedData :=
  (orFailed extracted).bind fun files =>
  (orFailed (files.lookup "metadata.txt")).bind fun metadataBuffer =>
  (readMetadata parseFloat (textOf metadataBuffer)).bind fun metadata =>
  (decodeFiles metadata.decoders (files.filter (·.1 ≠ "metadata.txt"))).map fun msgs =>
    ⟨metadata.uri, msgs, metadata.additionalData⟩

/-! ## Answers -/

/-- Decoding files does not panic. -/
theorem answers_decodeFiles (decoders : List KeyDecoder) (files : List (String × Buffer)) :
    Answers (decodeFiles decoders files) := by
  induction files with
  | nil => exact answers_ok _
  | cons file files ih =>
    rw [decodeFiles]
    apply answers_bind
    · rw [KeyDecoder.decodeDataFile_eq]
      exact answers_orFailed _
    · intro msgs _
      exact answers_map_iff.mpr ih

section Metadata

variable (parseFloat : String → Option UInt64)

/-- An element of a map in text form is parsed or refused. -/
theorem answers_parseElement (parsedMap : Entries) (element : List Char) :
    Answers (parseElement parseFloat parsedMap element) := by
  unfold parseElement
  simp only
  split
  · exact answers_failed
  split
  · exact answers_failed
  rename_i hpair
  rw [ne_eq, not_not] at hpair
  rw [index_eq (i := 0) (by omega), index_eq (i := 1) (by omega)]
  simp only [Except.bind]
  split
  · exact answers_failed
  rename_i hsplit
  rw [ne_eq, not_not] at hsplit
  rw [index_eq (i := 0) (by omega), index_eq (i := 1) (by omega)]
  exact answers_map_iff.mpr (answers_orFailed _)

/-- So is the whole map. -/
theorem answers_parseStringifiedMap (stringifiedMap : List Char) :
    Answers (parseStringifiedMap parseFloat stringifiedMap) := by
  unfold parseStringifiedMap
  generalize GoText.split [';'] stringifiedMap = elements
  generalize ([] : Entries) = parsedMap
  induction elements generalizing parsedMap with
  | nil => exact answers_ok _
  | cons element elements ih =>
    rw [parseElements]
    apply answers_bind (answers_parseElement parseFloat parsedMap element)
    intro parsedMap _
    exact ih parsedMap

/-- Enumerations are read without a panic where each line is. -/
theorem answers_readEnumerations {α : Type} {read : List Char → Except Stop α}
    (hread : ∀ line, Answers (read line)) (lines : List (List Char)) :
    Answers (readEnumerations read lines) := by
  induction lines with
  | nil => exact answers_ok _
  | cons line lines ih =>
    rw [readEnumerations]
    split
    · exact answers_ok _
    · apply answers_bind (hread line)
      intro value _
      exact answers_map_iff.mpr ih

/-- The decoder of a key is read without a panic. -/
theorem answers_readKeyDecoder (key dataType : String) (lines : List (List Char)) :
    Answers (readKeyDecoder parseFloat key dataType lines) := by
  unfold readKeyDecoder
  split
  · exact answers_map_iff.mpr (answers_readEnumerations (fun _ => answers_ok _) lines)
  split
  · exact answers_map_iff.mpr
      (answers_readEnumerations (answers_parseStringifiedMap parseFloat) lines)
  · exact answers_ok _

/-- So are all keys. -/
theorem answers_readKeys (lines : List (List Char)) : Answers (readKeys parseFloat lines) := by
  induction hn : lines.length using Nat.strong_induction_on generalizing lines with
  | h n ih =>
    cases lines with
    | nil =>
      rw [readKeys]
      exact answers_ok _
    | cons line lines =>
      rw [readKeys]
      split
      · exact answers_failed
      rename_i hpair
      rw [ne_eq, not_not] at hpair
      rw [index_eq (i := 0) (by omega), index_eq (i := 1) (by omega)]
      simp only [Except.bind]
      split
      · rename_i stop hstop
        have hanswers := answers_readKeyDecoder parseFloat
          (.ofList (GoText.split ['\t'] line)[0]) (.ofList (GoText.split ['\t'] line)[1]) lines
        intro hpanicked
        rw [Except.error.injEq] at hpanicked
        exact hanswers (by rw [hstop, hpanicked])
      · rename_i read hread
        have hle := readKeyDecoder_length parseFloat hread
        rw [answers_map_iff]
        apply ih read.2.length _ read.2 rfl
        rw [← hn, List.length_cons]
        omega

/-! ## The additional data -/

/-- The additional data of a text comes to an end: there is none, or a line that is not a key and
a value comes after the first one. -/
def Separated (concatenatedMetadata : List Char) : Prop :=
  '\n' ∉ concatenatedMetadata ∨
    ∃ line ∈ (GoText.split ['\n'] concatenatedMetadata).tail, line.count ':' ≠ 1

/-- Lines panic that are all a key and a value. -/
theorem readAdditionalData_answers_iff (lines : List (List Char))
    (additionalData : List (String × String)) :
    Answers (readAdditionalData lines additionalData) ↔ ∃ line ∈ lines, line.count ':' ≠ 1 := by
  induction lines generalizing additionalData with
  | nil => simp [readAdditionalData, Answers]
  | cons line lines ih =>
    rw [readAdditionalData]
    have hlength := GoText.split_single_length ':' line
    by_cases hempty : line.length = 0
    · rw [if_pos hempty]
      have hnil : line = [] := List.length_eq_zero_iff.mp hempty
      simp [Answers, hnil]
    rw [if_neg hempty]
    by_cases hpair : (GoText.split [':'] line).length = 2
    · have hcount : line.count ':' = 1 := by omega
      rw [if_neg (by simp [hpair]), index_eq (i := 0) (by omega), index_eq (i := 1) (by omega)]
      simp only [Except.bind]
      rw [ih]
      simp [hcount]
    · have hcount : line.count ':' ≠ 1 := by omega
      rw [if_pos hpair]
      simp [Answers, hcount]

/-- Reading the metadata panics exactly where it has no separator. -/
theorem answers_readMetadata_iff (concatenatedMetadata : List Char) :
    Answers (readMetadata parseFloat concatenatedMetadata) ↔ Separated concatenatedMetadata := by
  have hlength := GoText.split_single_length '\n' concatenatedMetadata
  unfold readMetadata Separated
  by_cases hsingle : (GoText.split ['\n'] concatenatedMetadata).length = 1
  · have hnone : '\n' ∉ concatenatedMetadata := by
      rw [← List.count_eq_zero]
      omega
    simp [hsingle, hnone, Answers]
  have hsome : ¬ '\n' ∉ concatenatedMetadata := by
    rw [← List.count_eq_zero]
    omega
  rw [if_neg hsingle, index_eq (i := 0) (by omega), sliceFrom_eq (i := 1) (by omega)]
  simp only [Except.bind, hsome, false_or, List.drop_one]
  rw [← readAdditionalData_answers_iff _ []]
  cases hread : readAdditionalData (GoText.split ['\n'] concatenatedMetadata).tail [] with
  | error stop => simp [Answers]
  | ok read =>
    have hanswers : Answers (if read.2.length < 2 then .error .failed
        else (sliceFrom read.2 1).bind fun metadataFileLines =>
          (readKeys parseFloat metadataFileLines).map fun decoders => (⟨.ofList
            (GoText.split ['\n'] concatenatedMetadata)[0], decoders, read.1⟩ : Metadata)) := by
      split
      · exact answers_failed
      · rw [sliceFrom_eq (i := 1) (by omega)]
        exact answers_map_iff.mpr (answers_readKeys parseFloat _)
    exact ⟨fun _ => answers_ok read, fun _ => hanswers⟩

/-- Metadata and archives are answered exactly if the additional data comes to an end. -/
theorem decode_answers_iff :
    (∀ concatenatedMetadata, Answers (readMetadata parseFloat concatenatedMetadata) ↔
      Separated concatenatedMetadata) ∧
    (∀ decoders dataBuffer, Answers (KeyDecoder.decodeDataFile decoders dataBuffer)) ∧
    ∀ extracted, Answers (decodeFrom parseFloat extracted) ↔
      ∀ files, extracted = some files → ∀ metadataBuffer,
        files.lookup "metadata.txt" = some metadataBuffer → Separated (textOf metadataBuffer) := by
  refine ⟨answers_readMetadata_iff parseFloat, ?_, ?_⟩
  · intro decoders dataBuffer
    rw [KeyDecoder.decodeDataFile_eq]
    exact answers_orFailed _
  intro extracted
  unfold decodeFrom
  cases extracted with
  | none => simp [orFailed, Except.bind, Answers]
  | some files =>
    cases hmetadata : files.lookup "metadata.txt" with
    | none => simp [orFailed, Except.bind, Answers, hmetadata]
    | some metadataBuffer =>
      simp only [orFailed, Except.bind, hmetadata, Option.some.injEq, forall_eq']
      rw [← answers_readMetadata_iff parseFloat]
      cases readMetadata parseFloat (textOf metadataBuffer) with
      | error stop => simp [Answers]
      | ok metadata =>
        have hfiles := answers_decodeFiles metadata.decoders
          (files.filter fun file => file.1 ≠ "metadata.txt")
        exact ⟨fun _ => answers_ok metadata, fun _ => answers_map_iff.mpr hfiles⟩

/-- Metadata that is cut off behind its additional data panics. -/
theorem cutMetadata_panics :
    readMetadata (fun _ => none) "/site/summary\ndatabase:fims".toList = .error .panicked := by
  have hanswers := answers_readMetadata_iff (fun _ => none) "/site/summary\ndatabase:fims".toList
  have hjoined : ¬ Separated "/site/summary\ndatabase:fims".toList := by
    unfold Separated
    decide
  by_contra hne
  exact hjoined (hanswers.mp hne)

end Metadata

end HybridOs.FimsCodec
