import HybridOs.FimsCodec

/-!
# Encoding and decoding runs of messages

An encoder takes messages one after the other, and passes over empty ones with an error. From
its first message on it writes the time of each message and then a part for each of its keys.
A decoder of a key whose tables continue those of the key after the whole run reads each part
back, and leaves what follows it.
-/

namespace HybridOs.FimsCodec

open Enumeration

theorem lookup_cons_if {α : Type} (key : String) (entry : String × α) (rest : List (String × α)) :
    (entry :: rest).lookup key = if key = entry.1 then some entry.2 else rest.lookup key := by
  rw [List.lookup_cons]
  by_cases h : key = entry.1
  · rw [beq_iff_eq.mpr h, if_pos h]
  · rw [beq_eq_false_iff_ne.mpr h, if_neg h]

/-- Under distinct keys every entry is found. -/
theorem lookup_of_mem {α : Type} {entries : List (String × α)}
    (hkeys : (entries.map Prod.fst).Nodup) {entry : String × α} (hentry : entry ∈ entries) :
    entries.lookup entry.1 = some entry.2 := by
  induction entries with
  | nil => cases hentry
  | cons first rest ih =>
    rw [List.map_cons, List.nodup_cons] at hkeys
    rw [lookup_cons_if]
    rcases List.mem_cons.mp hentry with rfl | hrest
    · rw [if_pos rfl]
    · have hne : entry.1 ≠ first.1 := fun heq => hkeys.1 (heq ▸ List.mem_map_of_mem hrest)
      rw [if_neg hne]
      exact ih hkeys.2 hrest

/-! ## Runs of the encoder -/

/-- The time at which a message is encoded, and its body. -/
abbrev Message := UInt64 × Entries

/-- The messages that have a body. -/
def taken (messages : List Message) : List Message :=
  messages.filter fun message => !message.2.isEmpty

theorem taken_nonempty {messages : List Message} {message : Message}
    (h : message ∈ taken messages) : message.2 ≠ [] := by
  have hbody := (List.mem_filter.mp h).2
  intro hempty
  rw [hempty] at hbody
  cases hbody

namespace Encoder

/-- The encoder after a message. It stays as it was where `Encode` returns an error. -/
def afterMessage (encoder : Encoder) (message : Message) : Option Encoder :=
  (encode message.1 message.2 encoder).map fun result => result.toOption.getD encoder

/-- The encoder after messages, or nothing if one of them makes it panic. -/
def afterMessages (encoder : Encoder) (messages : List Message) : Option Encoder :=
  messages.foldlM afterMessage encoder

end Encoder

/-- The bytes that later messages add under the given metadata, and the metadata afterwards. -/
def addMessages : List Message → List KeyMetadata → List UInt8 × List KeyMetadata
  | [], keyMetas => ([], keyMetas)
  | (now, bodyMap) :: rest, keyMetas =>
    let (bytes, next) := KeyMetadata.addAll bodyMap keyMetas
    let (further, last) := addMessages rest next
    (bigEndian now ++ bytes ++ further, last)

theorem addMessages_cons (now : UInt64) (bodyMap : Entries) (rest : List Message)
    (keyMetas : List KeyMetadata) :
    addMessages ((now, bodyMap) :: rest) keyMetas =
      (bigEndian now ++ (KeyMetadata.addAll bodyMap keyMetas).1 ++
          (addMessages rest (KeyMetadata.addAll bodyMap keyMetas).2).1,
        (addMessages rest (KeyMetadata.addAll bodyMap keyMetas).2).2) := rfl

namespace Encoder

theorem afterMessage_empty (encoder : Encoder) (now : UInt64) :
    encoder.afterMessage (now, []) = some encoder := by
  rw [afterMessage, encode]
  by_cases hfull : encoder.numMessages = maxMessageCount
  · rw [if_pos hfull]
    rfl
  · rw [if_neg hfull, if_pos rfl]
    rfl

/-- A run passes over empty messages. -/
theorem afterMessages_taken (encoder : Encoder) (messages : List Message) :
    encoder.afterMessages (taken messages) = encoder.afterMessages messages := by
  induction messages generalizing encoder with
  | nil => rfl
  | cons message rest ih =>
    obtain ⟨now, bodyMap⟩ := message
    have hcons : encoder.afterMessages ((now, bodyMap) :: rest) =
        (encoder.afterMessage (now, bodyMap)).bind fun next => next.afterMessages rest :=
      List.foldlM_cons
    cases bodyMap with
    | nil =>
      rw [hcons, afterMessage_empty, Option.bind_some, ← ih]
      rfl
    | cons field fields =>
      have htaken : taken ((now, field :: fields) :: rest) =
          (now, field :: fields) :: taken rest := rfl
      rw [htaken, hcons, afterMessages, List.foldlM_cons]
      refine congrArg _ (funext fun next => ?_)
      exact ih next

/-- A later message adds its time and a part for each key. -/
theorem afterMessage_later {encoder : Encoder} (hpos : encoder.numMessages ≠ 0)
    (hroom : encoder.numMessages < maxMessageCount) (now : UInt64) {bodyMap : Entries}
    (hbody : bodyMap ≠ []) :
    encoder.afterMessage (now, bodyMap) = some { encoder with
      data := encoder.data ++ bigEndian now ++
        (KeyMetadata.addAll bodyMap encoder.keyMetadatas).1
      keyMetadatas := (KeyMetadata.addAll bodyMap encoder.keyMetadatas).2
      numMessages := encoder.numMessages + 1 } := by
  rw [afterMessage, encode, if_neg (by omega), if_neg hbody]
  dsimp only [addDataIngestionTimestamp]
  rw [if_neg hpos]
  rfl

/-- A run of later messages. -/
theorem afterMessages_later {encoder : Encoder} (hpos : encoder.numMessages ≠ 0)
    {messages : List Message} (hbodies : ∀ message ∈ messages, message.2 ≠ [])
    (hroom : encoder.numMessages + messages.length ≤ maxMessageCount) :
    encoder.afterMessages messages = some { encoder with
      data := encoder.data ++ (addMessages messages encoder.keyMetadatas).1
      keyMetadatas := (addMessages messages encoder.keyMetadatas).2
      numMessages := encoder.numMessages + messages.length } := by
  induction messages generalizing encoder with
  | nil =>
    rw [addMessages, List.append_nil]
    rfl
  | cons message rest ih =>
    obtain ⟨now, bodyMap⟩ := message
    rw [List.length_cons] at hroom ⊢
    have hstep := afterMessage_later hpos (by omega) now (hbodies _ List.mem_cons_self)
    rw [afterMessages, List.foldlM_cons, hstep, Option.bind_eq_bind, Option.bind_some]
    have hrest := @ih ({ encoder with
      data := encoder.data ++ bigEndian now ++
        (KeyMetadata.addAll bodyMap encoder.keyMetadatas).1
      keyMetadatas := (KeyMetadata.addAll bodyMap encoder.keyMetadatas).2
      numMessages := encoder.numMessages + 1 }) (Nat.succ_ne_zero _)
      (fun message hmessage => hbodies message (List.mem_cons_of_mem _ hmessage))
      (by dsimp only; omega)
    rw [afterMessages] at hrest
    rw [hrest, addMessages_cons]
    simp only [List.append_assoc, Nat.add_assoc, Nat.add_comm 1]

/-- The first message is encoded like a later one, if none of its fields is a clothed null. -/
theorem afterMessage_first (uri : String) (additionalData : List (String × String))
    (now : UInt64) {bodyMap : Entries} (hbody : bodyMap ≠ [])
    (hkeys : (bodyMap.map Prod.fst).Nodup) (hnull : ∀ field ∈ bodyMap, ¬ ClothedNull field) :
    (newEncoder uri additionalData).afterMessage (now, bodyMap) =
      some ⟨uri, (addMessages [(now, bodyMap)] (freshMetadatas bodyMap)).2, additionalData,
        (addMessages [(now, bodyMap)] (freshMetadatas bodyMap)).1, 1⟩ := by
  have hfirst : (newEncoder uri additionalData).numMessages = 0 := rfl
  have hroom : ¬ (newEncoder uri additionalData).numMessages = maxMessageCount := by
    rw [hfirst]
    decide
  rw [afterMessage, encode, if_neg hroom, if_neg hbody]
  dsimp only [addDataIngestionTimestamp]
  rw [if_pos hfirst, addFields_eq _ (fun field => lookup_of_mem hkeys) hnull, addMessages_cons,
    addMessages, List.append_nil]
  rfl

end Encoder

/-! ## Runs of one key -/

/-- The value under a key of a later message. -/
def valueIn (bodyMap : Entries) (key : String) : Option GoValue :=
  (bodyMap.lookup key).bind nakedLater

/-- The values under a key in messages. -/
def valuesIn (messages : List Message) (key : String) : List (Option GoValue) :=
  messages.map fun message => valueIn message.2 key

/-- The values of a key leave the tables that it has at no more than 255 places, and no slice
among them is too long or has an illegal key. -/
structure FitsAfter (dataType : DataType) (strings : List String) (maps : List Entries)
    (values : List (Option GoValue)) : Prop where
  slices : ∀ value ∈ values, SliceFits dataType value
  strings : (enterAll sameString strings (values.flatMap (newStrings dataType))).length ≤ 255
  maps : (enterAll sameMap maps (values.flatMap (newMaps dataType))).length ≤ 255

theorem FitsAfter.next {dataType : DataType} {strings : List String} {maps : List Entries}
    {value : Option GoValue} {values : List (Option GoValue)}
    (h : FitsAfter dataType strings maps (value :: values)) :
    FitsAfter dataType (enterAll sameString strings (newStrings dataType value))
      (enterAll sameMap maps (newMaps dataType value)) values where
  slices := fun value hvalue => h.slices value (List.mem_cons_of_mem _ hvalue)
  strings := by
    have hlen := h.strings
    rw [List.flatMap_cons, enterAll_append] at hlen
    exact hlen
  maps := by
    have hlen := h.maps
    rw [List.flatMap_cons, enterAll_append] at hlen
    exact hlen

namespace KeyMetadata

variable {keyMeta : KeyMetadata} {strings : List String} {maps : List Entries}
  {values : List (Option GoValue)} {decoder : KeyDecoder}

/-- The metadata of a key after values. -/
def afterValues (keyMeta : KeyMetadata) (values : List (Option GoValue)) : KeyMetadata :=
  values.foldl (fun keyMeta value => (keyMeta.addValue value).2) keyMeta

/-- The keys of a message are encoded one after the other. -/
theorem addAll_cons (bodyMap : Entries) (keyMeta : KeyMetadata) (keyMetas : List KeyMetadata) :
    addAll bodyMap (keyMeta :: keyMetas) =
      ((keyMeta.addValue (valueIn bodyMap keyMeta.key)).1 ++ (addAll bodyMap keyMetas).1,
        (keyMeta.addValue (valueIn bodyMap keyMeta.key)).2 :: (addAll bodyMap keyMetas).2) := rfl

theorem addAll_metadatas (bodyMap : Entries) (keyMetas : List KeyMetadata) :
    (addAll bodyMap keyMetas).2 =
      keyMetas.map fun keyMeta => (keyMeta.addValue (valueIn bodyMap keyMeta.key)).2 := by
  induction keyMetas with
  | nil => rfl
  | cons keyMeta keyMetas ih => rw [addAll_cons, List.map_cons, ih]

/-- After a run each key has taken its values in the messages of the run. -/
theorem addMessages_metadatas (messages : List Message) (keyMetas : List KeyMetadata) :
    (addMessages messages keyMetas).2 =
      keyMetas.map fun keyMeta => keyMeta.afterValues (valuesIn messages keyMeta.key) := by
  induction messages generalizing keyMetas with
  | nil => exact (List.map_id keyMetas).symm
  | cons message rest ih =>
    obtain ⟨now, bodyMap⟩ := message
    rw [addMessages_cons, ih, addAll_metadatas, List.map_map]
    refine List.map_congr_left fun keyMeta _ => ?_
    rw [Function.comp_apply, (keyMeta.addValue_kept _).1]
    rfl

/-- The tables of a key after values that fit. -/
theorem Tabled.afterValues (h : keyMeta.Tabled strings maps)
    (hfits : FitsAfter keyMeta.dataType strings maps values) :
    (keyMeta.afterValues values).Tabled
      (enterAll sameString strings (values.flatMap (newStrings keyMeta.dataType)))
      (enterAll sameMap maps (values.flatMap (newMaps keyMeta.dataType))) := by
  induction values generalizing keyMeta strings maps with
  | nil => exact h
  | cons value values ih =>
    have hnext := hfits.next
    have htabled := (h.addValue (hfits.slices value List.mem_cons_self)
      (length_le_enterAll.trans hnext.strings) (length_le_enterAll.trans hnext.maps)).1
    have htype := (keyMeta.addValue_kept value).2
    have hrest := ih htabled (htype.symm ▸ hnext)
    rw [htype] at hrest
    rw [List.flatMap_cons, List.flatMap_cons, enterAll_append, enterAll_append]
    exact hrest

theorem afterValues_kept (keyMeta : KeyMetadata) (values : List (Option GoValue)) :
    (keyMeta.afterValues values).key = keyMeta.key ∧
      (keyMeta.afterValues values).dataType = keyMeta.dataType := by
  induction values generalizing keyMeta with
  | nil => exact ⟨rfl, rfl⟩
  | cons value values ih =>
    have hkept := keyMeta.addValue_kept value
    have hrest := ih (keyMeta.addValue value).2
    exact ⟨hrest.1.trans hkept.1, hrest.2.trans hkept.2⟩

/-- The decoder that belongs to tables of at most 255 places. -/
theorem Tabled.decoder_eq (h : keyMeta.Tabled strings maps) (hstrings : strings.length ≤ 255)
    (hmaps : maps.length ≤ 255) :
    keyMeta.decoder = some ⟨keyMeta.key, keyMeta.dataType.text, maps, strings⟩ := by
  rw [KeyMetadata.decoder, h.stringEnums, h.mapEnums, inOrder_stringTable hstrings,
    inOrder_numbered hmaps]
  rfl

/-- A decoder reads a key that is to take values that fit. -/
def Ready (keyMeta : KeyMetadata) (values : List (Option GoValue)) (decoder : KeyDecoder) :
    Prop :=
  ∃ strings maps, keyMeta.Tabled strings maps ∧
    FitsAfter keyMeta.dataType strings maps values ∧
    keyMeta.Continues (enterAll sameString strings (values.flatMap (newStrings keyMeta.dataType)))
      (enterAll sameMap maps (values.flatMap (newMaps keyMeta.dataType))) decoder

/-- The next value of a key is read back, and the decoder still reads the key after it. -/
theorem Ready.next {value : Option GoValue} (h : keyMeta.Ready (value :: values) decoder) :
    (keyMeta.addValue value).2.Ready values decoder ∧
      ∃ decoded, Decoded keyMeta.dataType value decoded ∧ ∀ rest,
        decoder.decodeSingle ((keyMeta.addValue value).1 ++ rest) = some (decoded, rest) := by
  obtain ⟨strings, maps, htabled, hfits, hdecoder⟩ := h
  have hnext := hfits.next
  obtain ⟨hafter, hread⟩ := htabled.addValue (hfits.slices value List.mem_cons_self)
    (length_le_enterAll.trans hnext.strings) (length_le_enterAll.trans hnext.maps)
  rw [List.flatMap_cons, List.flatMap_cons, enterAll_append, enterAll_append] at hdecoder
  obtain ⟨hkey, htype⟩ := keyMeta.addValue_kept value
  constructor
  · refine ⟨_, _, hafter, htype.symm ▸ hnext, ?_⟩
    rw [htype]
    exact ⟨hdecoder.key.trans hkey.symm, hdecoder.dataType.trans (congrArg _ htype.symm),
      hdecoder.strings, hdecoder.maps⟩
  · exact hread decoder ⟨hdecoder.key, hdecoder.dataType,
      prefix_enterAll.trans hdecoder.strings, prefix_enterAll.trans hdecoder.maps⟩

/-- The decoder that a new key has after values that fit reads them from the start. -/
theorem ready_fresh (key : String) {dataType : DataType} (hfits : FitsAfter dataType [] [] values) :
    ∃ decoder, ((fresh key dataType).afterValues values).decoder = some decoder ∧
      (fresh key dataType).Ready values decoder := by
  have htabled := (fresh_tabled key dataType).afterValues hfits
  obtain ⟨hkey, htype⟩ := (fresh key dataType).afterValues_kept values
  refine ⟨_, htabled.decoder_eq hfits.strings hfits.maps, [], [], fresh_tabled key dataType, hfits,
    hkey, congrArg DataType.text htype, List.prefix_rfl, List.prefix_rfl⟩

end KeyMetadata

/-! ## Messages -/

theorem lookup_replaced (entries : Entries) (key other : String) (value : GoValue) :
    (entries.map fun entry => if entry.1 = key then (key, value) else entry).lookup other =
      if other = key ∧ (entries.lookup key).isSome = true then some value
      else entries.lookup other := by
  induction entries with
  | nil => simp
  | cons entry rest ih =>
    rw [List.map_cons, lookup_cons_if, lookup_cons_if, lookup_cons_if, ih]
    by_cases hname : entry.1 = key
    · rw [if_pos hname, hname, if_pos rfl]
      by_cases hother : other = key
      · simp [hother]
      · simp [hother]
    · have hne : ¬ key = entry.1 := fun heq => hname heq.symm
      rw [if_neg hname, if_neg hne]
      by_cases hfirst : other = entry.1
      · simp [hfirst, hname]
      · simp [hfirst]

/-- Writing a value changes what is found under its key, and nothing else. -/
theorem lookup_write (msgBody : Entries) (key other : String) (value : GoValue) :
    (msgBody.write key value).lookup other =
      if other = key then some value else msgBody.lookup other := by
  rw [Entries.write]
  by_cases hfound : (msgBody.lookup key).isSome = true
  · rw [if_pos hfound, lookup_replaced]
    simp only [hfound, and_true]
  · rw [if_neg hfound, List.lookup_append, lookup_cons_if, List.lookup_nil]
    rw [Bool.not_eq_true, Option.isSome_eq_false_iff, Option.isNone_iff_eq_none] at hfound
    by_cases hother : other = key
    · rw [if_pos hother, if_pos hother, hother, hfound, Option.none_or]
    · rw [if_neg hother, if_neg hother, Option.or_none]

/-- What messages with the given keys are decoded as. -/
def ReadAs (fields : List (String × DataType)) (message decoded : Message) : Prop :=
  decoded.1 = message.1 ∧
    (∀ field ∈ fields, Decoded field.2 (valueIn message.2 field.1)
      (decoded.2.lookup field.1)) ∧
    ∀ key ∉ fields.map Prod.fst, decoded.2.lookup key = none

/-- The keys of metadata with their types. -/
def fieldsOfMetadatas (keyMetas : List KeyMetadata) : List (String × DataType) :=
  keyMetas.map fun keyMeta => (keyMeta.key, keyMeta.dataType)

variable {bodyMap : Entries} {keyMetas : List KeyMetadata} {decoders : List KeyDecoder}
  {messages : List Message}

/-- The keys of a message are read back, and what follows them is left. -/
theorem decodeKeys_ready {later : List Message}
    (h : List.Forall₂ (fun keyMeta decoder => KeyMetadata.Ready keyMeta
      (valueIn bodyMap keyMeta.key :: valuesIn later keyMeta.key) decoder) keyMetas decoders)
    (hkeys : (keyMetas.map KeyMetadata.key).Nodup) (rest : Buffer) {msgBody : Entries}
    (hclear : ∀ keyMeta ∈ keyMetas, msgBody.lookup keyMeta.key = none) :
    ∃ decoded, KeyDecoder.decodeKeys decoders ((KeyMetadata.addAll bodyMap keyMetas).1 ++ rest)
        msgBody = some (decoded, rest) ∧
      (∀ keyMeta ∈ keyMetas, Decoded keyMeta.dataType (valueIn bodyMap keyMeta.key)
        (decoded.lookup keyMeta.key)) ∧
      ∀ key ∉ keyMetas.map KeyMetadata.key, decoded.lookup key = msgBody.lookup key := by
  induction h generalizing msgBody with
  | nil => exact ⟨msgBody, rfl, fun keyMeta hmeta => absurd hmeta List.not_mem_nil, fun _ _ => rfl⟩
  | @cons keyMeta decoder keyMetas decoders hready hrest ih =>
    obtain ⟨-, value, hvalue, hread⟩ := hready.next
    have hkey : decoder.key = keyMeta.key := by
      obtain ⟨strings, maps, -, -, hdecoder⟩ := hready
      exact hdecoder.key
    rw [List.map_cons, List.nodup_cons] at hkeys
    have hput : ∀ key, (value.elim msgBody (msgBody.write decoder.key)).lookup key =
        if key = keyMeta.key then value.or (msgBody.lookup key) else msgBody.lookup key := by
      intro key
      cases value with
      | none => simp
      | some v => rw [Option.elim_some, lookup_write, hkey, Option.some_or]
    have hclearRest : ∀ other ∈ keyMetas,
        (value.elim msgBody (msgBody.write decoder.key)).lookup other.key = none := by
      intro other hother
      have hne : other.key ≠ keyMeta.key := fun heq =>
        hkeys.1 (heq ▸ List.mem_map_of_mem hother)
      rw [hput, if_neg hne]
      exact hclear other (List.mem_cons_of_mem _ hother)
    obtain ⟨decoded, hdecoded, hfields, hothers⟩ := ih hkeys.2 hclearRest
    refine ⟨decoded, ?_, ?_, ?_⟩
    · rw [KeyMetadata.addAll_cons, List.append_assoc, KeyDecoder.decodeKeys, hread,
        Option.bind_some]
      exact hdecoded
    · intro other hother
      rcases List.mem_cons.mp hother with rfl | hother
      · rw [hothers _ hkeys.1, hput, if_pos rfl, hclear _ List.mem_cons_self, Option.or_none]
        exact hvalue
      · exact hfields other hother
    · intro key hout
      rw [List.map_cons, List.mem_cons, not_or] at hout
      rw [hothers key hout.2, hput, if_neg hout.1]

/-- A run of messages is read back message by message, to the end of its bytes. -/
theorem decodeMessages_ready (h : List.Forall₂ (fun keyMeta decoder => KeyMetadata.Ready keyMeta
      (valuesIn messages keyMeta.key) decoder) keyMetas decoders)
    (hkeys : (keyMetas.map KeyMetadata.key).Nodup) :
    ∃ decoded, KeyDecoder.decodeMessages decoders messages.length
        (addMessages messages keyMetas).1 = some (decoded, []) ∧
      List.Forall₂ (ReadAs (fieldsOfMetadatas keyMetas)) messages decoded := by
  induction messages generalizing keyMetas with
  | nil => exact ⟨[], rfl, .nil⟩
  | cons message rest ih =>
    obtain ⟨now, bodyMap⟩ := message
    obtain ⟨body, hbody, hfields, hothers⟩ := decodeKeys_ready h hkeys
      (addMessages rest (KeyMetadata.addAll bodyMap keyMetas).2).1
      (fun keyMeta _ => (rfl : ([] : Entries).lookup keyMeta.key = none))
    have hnext : List.Forall₂ (fun keyMeta decoder => KeyMetadata.Ready keyMeta
        (valuesIn rest keyMeta.key) decoder) (KeyMetadata.addAll bodyMap keyMetas).2 decoders := by
      rw [KeyMetadata.addAll_metadatas, List.forall₂_map_left_iff]
      refine h.imp fun keyMeta decoder hready => ?_
      rw [(keyMeta.addValue_kept _).1]
      exact hready.next.1
    have hnames : fieldsOfMetadatas (KeyMetadata.addAll bodyMap keyMetas).2 =
        fieldsOfMetadatas keyMetas := by
      rw [KeyMetadata.addAll_metadatas, fieldsOfMetadatas, List.map_map]
      refine List.map_congr_left fun keyMeta _ => ?_
      rw [Function.comp_apply, (keyMeta.addValue_kept _).1, (keyMeta.addValue_kept _).2]
    have hkeysNext : ((KeyMetadata.addAll bodyMap keyMetas).2.map KeyMetadata.key).Nodup := by
      rw [KeyMetadata.addAll_metadatas, List.map_map]
      have hsame : KeyMetadata.key ∘ (fun keyMeta => (keyMeta.addValue
          (valueIn bodyMap keyMeta.key)).2) = KeyMetadata.key :=
        funext fun keyMeta => (keyMeta.addValue_kept _).1
      rw [hsame]
      exact hkeys
    obtain ⟨decoded, hdecoded, hread⟩ := ih hnext hkeysNext
    refine ⟨(now, body) :: decoded, ?_, .cons ⟨rfl, ?_, ?_⟩ (hnames ▸ hread)⟩
    · rw [addMessages_cons, List.length_cons, KeyDecoder.decodeMessages,
        KeyDecoder.decodeSingleFimsMsg, List.append_assoc,
        readBytesIntoBuffer_append _ _ (length_bigEndian now), Option.bind_some]
      dsimp only
      rw [hbody, fromBigEndian_bigEndian, UInt64.ofNat_toNat, Option.map_some, Option.bind_some]
      rw [hdecoded]
      rfl
    · intro field hfield
      obtain ⟨keyMeta, hmeta, rfl⟩ := List.mem_map.mp hfield
      exact hfields keyMeta hmeta
    · intro key hkey
      refine hothers key fun hmem => hkey ?_
      rw [fieldsOfMetadatas, List.map_map]
      exact hmem

/-! ## The data file -/

theorem fromBigEndian_header {n : ℕ} (hn : n ≤ maxMessageCount) :
    fromBigEndian [UInt8.ofNat (n / 256), UInt8.ofNat n] = n := by
  rw [maxMessageCount] at hn
  simp only [fromBigEndian, List.foldl_cons, List.foldl_nil, UInt8.toNat_ofNat']
  omega

theorem keys_fieldsOf_sublist (bodyMap : Entries) :
    ((fieldsOf bodyMap).map Prod.fst).Sublist (bodyMap.map Prod.fst) := by
  induction bodyMap with
  | nil => exact List.Sublist.refl _
  | cons field rest ih =>
    rw [fieldsOf, List.filterMap_cons, List.map_cons]
    by_cases htime : isTimestamp field.1 = true
    · rw [if_pos htime]
      exact ih.cons _
    · rw [if_neg htime]
      cases (nakedFirst field.2).bind typeOf with
      | none => exact ih.cons _
      | some dataType => exact ih.cons_cons _

/-- The keys of a first message whose values in the run fit their decoders. -/
theorem exists_decoders {fields : List (String × DataType)}
    (hfits : ∀ field ∈ fields, FitsAfter field.2 [] [] (valuesIn messages field.1)) :
    ∃ decoders, ((fields.map fun field => KeyMetadata.fresh field.1 field.2).map
        fun keyMeta => keyMeta.afterValues (valuesIn messages keyMeta.key)).mapM
          KeyMetadata.decoder = some decoders ∧
      List.Forall₂ (fun keyMeta decoder => KeyMetadata.Ready keyMeta
        (valuesIn messages keyMeta.key) decoder)
        (fields.map fun field => KeyMetadata.fresh field.1 field.2) decoders := by
  induction fields with
  | nil => exact ⟨[], rfl, .nil⟩
  | cons field fields ih =>
    obtain ⟨decoders, hdecoders, hready⟩ :=
      ih fun field hfield => hfits field (List.mem_cons_of_mem _ hfield)
    obtain ⟨decoder, hdecoder, hfirst⟩ :=
      KeyMetadata.ready_fresh field.1 (hfits field List.mem_cons_self)
    refine ⟨decoder :: decoders, ?_, .cons hfirst hready⟩
    rw [List.map_cons, List.map_cons, List.mapM_cons]
    have hhead : ((KeyMetadata.fresh field.1 field.2).afterValues
        (valuesIn messages (KeyMetadata.fresh field.1 field.2).key)).decoder = some decoder :=
      hdecoder
    rw [hhead, hdecoders]
    rfl

/-- A run of messages is read back to the end of its bytes by the decoders that belong to the
encoder after it, if no field of the first message is a clothed null and the values of each of
its keys fit. -/
theorem Encoder.afterMessages_decoded (uri : String) (additionalData : List (String × String))
    {now : UInt64} {rest : List Message}
    (hbodies : ∀ message ∈ (now, bodyMap) :: rest, message.2 ≠ [])
    (hcount : ((now, bodyMap) :: rest).length ≤ maxMessageCount)
    (hkeys : (bodyMap.map Prod.fst).Nodup) (hnull : ∀ field ∈ bodyMap, ¬ ClothedNull field)
    (hfits : ∀ field ∈ fieldsOf bodyMap,
      FitsAfter field.2 [] [] (valuesIn ((now, bodyMap) :: rest) field.1)) :
    ∃ encoder decoders decoded,
      (newEncoder uri additionalData).afterMessages ((now, bodyMap) :: rest) = some encoder ∧
      encoder.decoders = some decoders ∧
      KeyDecoder.decodeFimsMessages decoders encoder.dataFile = some (decoded, []) ∧
      List.Forall₂ (ReadAs (fieldsOf bodyMap)) ((now, bodyMap) :: rest) decoded := by
  have hnames : fieldsOfMetadatas (freshMetadatas bodyMap) = fieldsOf bodyMap := by
    rw [fieldsOfMetadatas, freshMetadatas, List.map_map]
    exact List.map_id _
  have hdistinct : ((freshMetadatas bodyMap).map KeyMetadata.key).Nodup := by
    rw [freshMetadatas, List.map_map]
    exact hkeys.sublist (keys_fieldsOf_sublist bodyMap)
  have hrun : (newEncoder uri additionalData).afterMessages ((now, bodyMap) :: rest) =
      some ⟨uri, (addMessages ((now, bodyMap) :: rest) (freshMetadatas bodyMap)).2,
        additionalData, (addMessages ((now, bodyMap) :: rest) (freshMetadatas bodyMap)).1,
        ((now, bodyMap) :: rest).length⟩ := by
    have hfirst := afterMessage_first uri additionalData now (hbodies _ List.mem_cons_self) hkeys
      hnull
    rw [afterMessages, List.foldlM_cons, hfirst, Option.bind_eq_bind, Option.bind_some]
    rw [List.length_cons] at hcount
    have hlater := @afterMessages_later (⟨uri,
        (addMessages [(now, bodyMap)] (freshMetadatas bodyMap)).2, additionalData,
        (addMessages [(now, bodyMap)] (freshMetadatas bodyMap)).1, 1⟩) one_ne_zero rest
      (fun message hmessage => hbodies message (List.mem_cons_of_mem _ hmessage))
      (by dsimp only; omega)
    rw [afterMessages] at hlater
    rw [hlater]
    simp only [addMessages, List.append_nil, List.length_cons, Nat.add_comm 1]
  obtain ⟨decoders, hdecoders, hready⟩ := exists_decoders hfits
  obtain ⟨decoded, hdecoded, hread⟩ := decodeMessages_ready hready hdistinct
  refine ⟨_, decoders, decoded, hrun, ?_, ?_, hnames ▸ hread⟩
  · rw [Encoder.decoders, KeyMetadata.addMessages_metadatas]
    exact hdecoders
  · rw [dataFile, KeyDecoder.decodeFimsMessages, fromBigEndian_header hcount]
    exact hdecoded

/-!
## Messages that conform to the format

The fields of conforming messages are timestamps, controls, and naked or clothed values, where
each key has values of one type. They are read back as they were, as long as the enumerations
fit a byte. A number equal to the marker of missing values and an empty array are read back as
missing, and a key whose first value has a `ui_type` other than a string is refused.
-/

/-- A control of a user interface: an object without a value, or with the type of controls. -/
def isControl : GoValue → Bool
  | .map entries =>
    (entries.lookup "value").isNone ||
      match entries.lookup "ui_type" with
      | some (.string uiType) => uiType = "control"
      | _ => false
  | _ => false

/-- The naked value of a field that is neither a timestamp nor a control. -/
def plainValue (bodyMap : Entries) (key : String) : Option GoValue :=
  if isTimestamp key then none
  else (bodyMap.lookup key).bind fun value => if isControl value then none else nakedLater value

/-- A naked value of a type: a number, a string or boolean, or an array of objects. No string
among them has illegal characters. -/
def IsNaked : DataType → GoValue → Prop
  | .float64, .float64 _ => True
  | .string, .string s => containsIllegal s = false
  | .bool, .bool _ => True
  | .sliceOfMaps, .slice elems => ∃ objects : List Entries, elems = objects.map .map ∧
      ∀ object ∈ objects, Legal object
  | _, _ => False

/-- The messages have the same keys, and each of these is a timestamp, or that of controls, or
that of values of one type. -/
structure Conforms (messages : List Message) : Prop where
  distinct : ∀ message ∈ messages, (message.2.map Prod.fst).Nodup
  keys : ∀ message ∈ messages, ∀ other ∈ messages, ∀ key,
    key ∈ message.2.map Prod.fst ↔ key ∈ other.2.map Prod.fst
  types : ∀ key, isTimestamp key = false →
    (∀ message ∈ messages, ∀ value, message.2.lookup key = some value →
      isControl value = true) ∨
    ∃ dataType, ∀ message ∈ messages, ∀ value, message.2.lookup key = some value →
      isControl value = false ∧ ∃ naked, nakedLater value = some naked ∧ IsNaked dataType naked

/-- The strings under a key. -/
def stringsUnder (messages : List Message) (key : String) : List String :=
  messages.filterMap fun message => (plainValue message.2 key).bind asString

/-- The objects in the arrays under a key. -/
def objectsUnder (messages : List Message) (key : String) : List Entries :=
  messages.flatMap fun message => ((plainValue message.2 key).bind asMaps).getD []

/-- Each key has at most 255 different strings and objects, and each array as many objects. -/
structure FitsBytes (messages : List Message) : Prop where
  strings : ∀ key, (enterAll sameString [] (stringsUnder messages key)).length ≤ 255
  objects : ∀ key, (enterAll sameMap [] (objectsUnder messages key)).length ≤ 255
  arrays : ∀ message ∈ messages, ∀ key objects,
    (plainValue message.2 key).bind asMaps = some objects → objects.length ≤ 255

/-- A value that is read back as the naked value that was encoded: an array as objects that
are deeply equal to its own. -/
def SameNaked : GoValue → GoValue → Prop
  | .slice elems, .slice found =>
    List.Forall₂ (fun elem other => other = elem ∨ GoValue.deepEqual elem other = true) elems found
  | naked, found => found = naked

/-- The messages are encoded and read back to the end of the bytes, where the values of each
message that has a body are those that are expected. -/
def ReadBack (uri : String) (additionalData : List (String × String))
    (expected : Entries → String → Option GoValue) (messages : List Message) : Prop :=
  ∃ encoder decoders decoded,
    (newEncoder uri additionalData).afterMessages messages = some encoder ∧
    encoder.decoders = some decoders ∧
    KeyDecoder.decodeFimsMessages decoders encoder.dataFile = some (decoded, []) ∧
    List.Forall₂ (fun message found => found.1 = message.1 ∧
      ∀ key, Option.Rel SameNaked (expected message.2 key) (found.2.lookup key))
      (taken messages) decoded

/-- The key of an object with a value whose `ui_type` is not a string. -/
def isRefused (firstBody : Entries) (key : String) : Bool :=
  match firstBody.lookup key with
  | some (.map entries) => (mapHoldsUiControl entries).isNone
  | _ => false

/-- A number equal to the marker of missing values, or an empty array. -/
def isMissing : GoValue → Bool
  | .float64 bits => GoValue.floatEq bits missingFloatMarker
  | .slice elems => elems.isEmpty
  | _ => false

/-- The body of the first message that has one. -/
def firstBody (messages : List Message) : Entries :=
  (taken messages).head?.elim [] Prod.snd

/-- The naked values without those that stand for missing ones and those of refused keys. -/
def presentValue (firstBody bodyMap : Entries) (key : String) : Option GoValue :=
  if isRefused firstBody key then none
  else (plainValue bodyMap key).filter fun naked => !isMissing naked

/-! ## Fields of a first message -/

variable {value naked : GoValue} {dataType : DataType} {key : String} {messages : List Message}
  {message : Message}

theorem nakedFirst_of_control (h : isControl value = true) : nakedFirst value = none := by
  cases value with
  | map entries =>
    rw [nakedFirst, if_neg]
    intro hholds
    rw [mapHoldsUiControl] at hholds
    rw [isControl] at h
    cases hvalue : entries.lookup "value" with
    | none => simp [hvalue] at hholds
    | some inner =>
      cases htype : entries.lookup "ui_type" with
      | none => simp [hvalue, htype] at h
      | some uiType =>
        cases uiType with
        | string text => simp_all
        | _ => simp [hvalue, htype] at h
  | _ => cases h

/-- A value that is no control and is not refused is taken from a first message. -/
theorem nakedFirst_of_plain (hcontrol : isControl value = false)
    (hnaked : nakedLater value = some naked) (hnil : naked ≠ .nil)
    (hrefused : ∀ entries, value = .map entries → (mapHoldsUiControl entries).isNone = false) :
    nakedFirst value = some naked := by
  cases value with
  | nil =>
    cases hnaked
    exact absurd rfl hnil
  | map entries =>
    have hholds := hrefused entries rfl
    rw [nakedFirst, if_pos]
    · exact hnaked
    · rw [isControl] at hcontrol
      rw [mapHoldsUiControl] at hholds ⊢
      cases hvalue : entries.lookup "value" with
      | none => simp [hvalue] at hcontrol
      | some inner =>
        cases htype : entries.lookup "ui_type" with
        | none => simp
        | some uiType =>
          cases uiType with
          | string text => simp_all
          | _ => simp [hvalue, htype] at hholds
  | _ => exact hnaked

theorem castToMapSlice_objects (objects : List Entries) :
    castToMapSlice (objects.map .map) = some objects := by
  induction objects with
  | nil => rfl
  | cons object rest ih =>
    rw [List.map_cons, castToMapSlice, ih]
    rfl

theorem typeOf_of_isNaked (h : IsNaked dataType naked) : typeOf naked = some dataType := by
  cases dataType with
  | float64 =>
    cases naked with
    | float64 bits => rfl
    | _ => exact h.elim
  | string =>
    cases naked with
    | string s => rfl
    | _ => exact h.elim
  | bool =>
    cases naked with
    | bool b => rfl
    | _ => exact h.elim
  | sliceOfMaps =>
    cases naked with
    | slice elems =>
      obtain ⟨objects, rfl, -⟩ := h
      have hslice : typeOf (.slice (objects.map .map)) =
          if (castToMapSlice (objects.map .map)).isSome then some .sliceOfMaps else none := rfl
      rw [hslice, castToMapSlice_objects]
      rfl
    | _ => exact h.elim

theorem mem_fieldsOf {bodyMap : Entries} :
    (key, dataType) ∈ fieldsOf bodyMap ↔ isTimestamp key = false ∧
      ∃ value naked, (key, value) ∈ bodyMap ∧ nakedFirst value = some naked ∧
        typeOf naked = some dataType := by
  rw [fieldsOf, List.mem_filterMap]
  constructor
  · rintro ⟨⟨name, value⟩, hfield, hsome⟩
    by_cases htime : isTimestamp name = true
    · rw [if_pos htime] at hsome
      cases hsome
    · rw [if_neg htime] at hsome
      obtain ⟨found, hfound, hpair⟩ := Option.map_eq_some_iff.mp hsome
      obtain ⟨naked, hnaked, htype⟩ := Option.bind_eq_some_iff.mp hfound
      cases hpair
      exact ⟨(Bool.not_eq_true _).mp htime, value, naked, hfield, hnaked, htype⟩
  · rintro ⟨htime, value, naked, hfield, hnaked, htype⟩
    refine ⟨(key, value), hfield, ?_⟩
    rw [if_neg (by rw [htime]; decide), hnaked, Option.bind_some, htype]
    rfl

/-! ## The values of one key -/

theorem plainValue_of_isNaked {bodyMap : Entries} (htime : isTimestamp key = false)
    (hvalue : bodyMap.lookup key = some value) (hcontrol : isControl value = false)
    (hnaked : nakedLater value = some naked) :
    plainValue bodyMap key = some naked ∧ valueIn bodyMap key = some naked := by
  constructor
  · rw [plainValue, if_neg (by rw [htime]; decide), hvalue, Option.bind_some,
      if_neg (by rw [hcontrol]; decide)]
    exact hnaked
  · rw [valueIn, hvalue]
    exact hnaked

/-- A naked value enters itself into the table of its key. -/
theorem new_of_isNaked (h : IsNaked dataType naked) :
    newStrings dataType (some naked) = (asString naked).toList ∧
      newMaps dataType (some naked) = (asMaps naked).getD [] := by
  cases dataType with
  | float64 =>
    cases naked with
    | float64 bits => exact ⟨rfl, rfl⟩
    | _ => exact h.elim
  | bool =>
    cases naked with
    | bool b => exact ⟨rfl, rfl⟩
    | _ => exact h.elim
  | string =>
    cases naked with
    | string s =>
      refine ⟨?_, rfl⟩
      rw [newStrings, if_pos rfl, Option.bind_some, asString, Option.map_some, marked_of_legal h]
    | _ => exact h.elim
  | sliceOfMaps =>
    cases naked with
    | slice elems =>
      obtain ⟨objects, rfl, hlegal⟩ := h
      refine ⟨rfl, ?_⟩
      rw [newMaps, if_pos rfl, Option.bind_some, asMaps, castToMapSlice_objects, Option.getD_some]
      conv_rhs => rw [← List.map_id objects]
      exact List.map_congr_left fun object hobject => markedMap_of_legal (hlegal object hobject)
    | _ => exact h.elim

theorem keysLegal_of_legal {object : Entries} (h : Legal object) : KeysLegal object := by
  intro entry hentry
  rw [Legal, List.any_eq_false] at h
  have hlegal := h entry hentry
  obtain ⟨key, value⟩ := entry
  cases value with
  | string s =>
    rw [illegalEntry_of_string, Bool.not_eq_true, Bool.or_eq_false_iff] at hlegal
    exact hlegal.1
  | _ => exact (Bool.not_eq_true _).mp hlegal

theorem keysLegal_of_isNaked (h : IsNaked dataType naked) {objects : List Entries}
    (hobjects : asMaps naked = some objects) : ∀ object ∈ objects, KeysLegal object := by
  cases naked with
  | slice elems =>
    cases dataType with
    | sliceOfMaps =>
      obtain ⟨others, rfl, hlegal⟩ := h
      rw [asMaps, castToMapSlice_objects, Option.some.injEq] at hobjects
      subst hobjects
      exact fun object hobject => keysLegal_of_legal (hlegal object hobject)
    | _ => exact h.elim
  | _ => cases hobjects

/-- Under a key with values of one type, the values of messages that fit a byte fit the
tables. -/
theorem fitsAfter_of_isNaked (hfits : FitsBytes messages)
    (hvalues : ∀ message ∈ messages, ∃ naked, plainValue message.2 key = some naked ∧
      valueIn message.2 key = some naked ∧ IsNaked dataType naked) :
    FitsAfter dataType [] [] (valuesIn messages key) := by
  have htables : (valuesIn messages key).flatMap (newStrings dataType) =
        stringsUnder messages key ∧
      (valuesIn messages key).flatMap (newMaps dataType) = objectsUnder messages key := by
    clear hfits
    induction messages with
    | nil => exact ⟨rfl, rfl⟩
    | cons message rest ih =>
      obtain ⟨naked, hplain, hin, hnaked⟩ := hvalues message List.mem_cons_self
      obtain ⟨hstrings, hmaps⟩ :=
        ih fun other hother => hvalues other (List.mem_cons_of_mem _ hother)
      obtain ⟨hstring, hmap⟩ := new_of_isNaked hnaked
      constructor
      · rw [stringsUnder, List.filterMap_cons, hplain, Option.bind_some, valuesIn, List.map_cons,
          List.flatMap_cons, hin, hstring]
        rw [valuesIn, stringsUnder] at hstrings
        cases asString naked with
        | none => exact hstrings
        | some s => rw [hstrings]; rfl
      · rw [objectsUnder, List.flatMap_cons, hplain, Option.bind_some, valuesIn, List.map_cons,
          List.flatMap_cons, hin, hmap]
        rw [valuesIn, objectsUnder] at hmaps
        rw [hmaps]
  constructor
  · intro value hvalue _ objects hobjects
    obtain ⟨message, hmessage, rfl⟩ := List.mem_map.mp hvalue
    obtain ⟨naked, hplain, hin, hnaked⟩ := hvalues message hmessage
    rw [hin, ← hplain] at hobjects
    refine ⟨hfits.arrays message hmessage key objects hobjects, fun object hobject => ?_⟩
    rw [hplain, Option.bind_some] at hobjects
    exact keysLegal_of_isNaked hnaked hobjects object hobject
  · rw [htables.1]
    exact hfits.strings key
  · rw [htables.2]
    exact hfits.objects key

/-- Legal objects stand for themselves. -/
theorem sameMaps_of_standFor {objects maps : List Entries}
    (hlegal : ∀ object ∈ objects, Legal object) (hstand : StandFor objects maps) :
    List.Forall₂ (fun object other => GoValue.map other = .map object ∨
      GoValue.deepEqual (.map object) (.map other) = true) objects maps := by
  induction hstand with
  | nil => exact .nil
  | @cons object other objects maps hsame _ ih =>
    rw [markedMap_of_legal (hlegal object List.mem_cons_self)] at hsame
    refine .cons (hsame.imp (congrArg GoValue.map) id) (ih fun object hobject => ?_)
    exact hlegal object (List.mem_cons_of_mem _ hobject)

/-- A naked value is decoded as itself, unless it stands for a missing one. -/
theorem sameNaked_of_decoded (h : IsNaked dataType naked) {decoded : Option GoValue}
    (hdecoded : Decoded dataType (some naked) decoded) :
    Option.Rel SameNaked ((some naked).filter fun naked => !isMissing naked) decoded := by
  cases dataType with
  | float64 =>
    cases naked with
    | float64 bits =>
      have hread : decoded = readNumber bits := hdecoded
      rw [hread, readNumber, Option.filter_some, isMissing]
      by_cases hmarker : GoValue.floatEq bits missingFloatMarker = true
      · rw [if_pos hmarker, hmarker]
        exact .none
      · rw [if_neg hmarker, (Bool.not_eq_true _).mp hmarker]
        exact .some rfl
    | _ => exact h.elim
  | bool =>
    cases naked with
    | bool b =>
      have hread : decoded = some (.bool b) := hdecoded
      rw [hread]
      exact .some rfl
    | _ => exact h.elim
  | string =>
    cases naked with
    | string s =>
      have hread : decoded = some (.string (marked s)) := hdecoded
      rw [hread, marked_of_legal h]
      exact .some rfl
    | _ => exact h.elim
  | sliceOfMaps =>
    cases naked with
    | slice elems =>
      obtain ⟨objects, rfl, hlegal⟩ := h
      rw [Decoded, Option.bind_some, asMaps, castToMapSlice_objects, Option.getD_some] at hdecoded
      cases objects with
      | nil =>
        rw [if_pos rfl] at hdecoded
        rw [hdecoded]
        exact .none
      | cons object rest =>
        rw [if_neg (List.cons_ne_nil _ _)] at hdecoded
        obtain ⟨maps, hmaps, hstand⟩ := hdecoded
        rw [hmaps]
        refine .some ?_
        rw [SameNaked, List.forall₂_map_left_iff, List.forall₂_map_right_iff]
        exact sameMaps_of_standFor hlegal hstand
    | _ => exact h.elim

/-! ## Round trips -/

theorem taken_first {rest : List Message} (h : taken messages = message :: rest) :
    firstBody messages = message.2 := by
  rw [firstBody, h]
  rfl

/-- Conforming messages have a body if one of them has. -/
theorem Conforms.taken_eq (h : Conforms messages) (hne : taken messages ≠ []) :
    taken messages = messages := by
  obtain ⟨message, hmessage⟩ := List.exists_mem_of_ne_nil _ hne
  have hbody := taken_nonempty hmessage
  rw [taken, List.filter_eq_self]
  intro other hother
  obtain ⟨field, hfield⟩ := List.exists_mem_of_ne_nil _ hbody
  have hkey := (h.keys message (List.mem_filter.mp hmessage).1 other hother field.1).mp
    (List.mem_map_of_mem hfield)
  cases hempty : other.2 with
  | nil =>
    rw [hempty] at hkey
    cases hkey
  | cons first rest => rfl

/-- A first message of conforming ones has no clothed null. -/
theorem Conforms.not_clothedNull (h : Conforms messages) (hmessage : message ∈ messages) :
    ∀ field ∈ message.2, ¬ ClothedNull field := by
  rintro ⟨key, value⟩ hfield ⟨htime, hnull⟩
  have hlookup := lookup_of_mem (h.distinct message hmessage) hfield
  rcases h.types key htime with hcontrols | ⟨dataType, htyped⟩
  · rw [nakedFirst_of_control (hcontrols message hmessage value hlookup)] at hnull
    cases hnull
  · obtain ⟨-, naked, hnaked, hkind⟩ := htyped message hmessage value hlookup
    rw [nakedLater_of_first hnull, Option.some.injEq] at hnaked
    subst hnaked
    cases dataType <;> exact hkind

/-- The values of a key that a first message gives an encoder. -/
theorem Conforms.of_mem_fieldsOf (h : Conforms messages) {first : Message}
    (hfirst : first ∈ messages) (hfield : (key, dataType) ∈ fieldsOf first.2) :
    isTimestamp key = false ∧ isRefused first.2 key = false ∧
      ∀ message ∈ messages, ∃ naked, plainValue message.2 key = some naked ∧
        valueIn message.2 key = some naked ∧ IsNaked dataType naked := by
  obtain ⟨htime, value, naked, hmem, hnaked, htype⟩ := mem_fieldsOf.mp hfield
  have hlookup := lookup_of_mem (h.distinct first hfirst) hmem
  dsimp only at hlookup
  refine ⟨htime, ?_, ?_⟩
  · rw [isRefused, hlookup]
    cases value with
    | map entries =>
      rw [nakedFirst] at hnaked
      split_ifs at hnaked with hholds
      dsimp only
      rw [hholds]
      rfl
    | _ => rfl
  · rcases h.types key htime with hcontrols | ⟨other, htyped⟩
    · rw [nakedFirst_of_control (hcontrols first hfirst value hlookup)] at hnaked
      cases hnaked
    · have hother : other = dataType := by
        obtain ⟨-, found, hfound, hkind⟩ := htyped first hfirst value hlookup
        rw [nakedLater_of_first hnaked, Option.some.injEq] at hfound
        rw [← hfound] at hkind
        rw [typeOf_of_isNaked hkind, Option.some.injEq] at htype
        exact htype
      subst hother
      intro message hmessage
      have hkey := (h.keys first hfirst message hmessage key).mp (List.mem_map_of_mem hmem)
      obtain ⟨⟨name, held⟩, hheld, rfl⟩ := List.mem_map.mp hkey
      have hvalue := lookup_of_mem (h.distinct message hmessage) hheld
      obtain ⟨hcontrol, found, hfound, hkind⟩ := htyped message hmessage held hvalue
      obtain ⟨hplain, hin⟩ := plainValue_of_isNaked htime hvalue hcontrol hfound
      exact ⟨found, hplain, hin, hkind⟩

/-- A key that a first message gives no encoder has no values that are read back. -/
theorem Conforms.of_notMem_fieldsOf (h : Conforms messages) {first : Message}
    (hfirst : first ∈ messages) (hfield : key ∉ (fieldsOf first.2).map Prod.fst)
    (hmessage : message ∈ messages) : presentValue first.2 message.2 key = none := by
  rw [presentValue]
  by_cases hrefused : isRefused first.2 key = true
  · rw [if_pos hrefused]
  · rw [if_neg hrefused, plainValue]
    by_cases htime : isTimestamp key = true
    · rw [if_pos htime]
      rfl
    · rw [if_neg htime]
      cases hvalue : message.2.lookup key with
      | none => rfl
      | some held =>
        rw [Option.bind_some]
        by_cases hcontrol : isControl held = true
        · rw [if_pos hcontrol]
          rfl
        · rw [Bool.not_eq_true] at htime hcontrol hrefused
          rcases h.types key htime with hcontrols | ⟨dataType, htyped⟩
          · rw [hcontrols message hmessage held hvalue] at hcontrol
            cases hcontrol
          · exfalso
            apply hfield
            have hkey := (h.keys message hmessage first hfirst key).mp
              (List.mem_map_of_mem (mem_of_lookup hvalue))
            obtain ⟨⟨name, value⟩, hmem, rfl⟩ := List.mem_map.mp hkey
            have hlookup := lookup_of_mem (h.distinct first hfirst) hmem
            obtain ⟨hplain, naked, hnaked, hkind⟩ := htyped first hfirst value hlookup
            have hnil : naked ≠ .nil := by
              rintro rfl
              cases dataType <;> exact hkind
            have hallowed : ∀ entries, value = .map entries →
                (mapHoldsUiControl entries).isNone = false := by
              rintro entries rfl
              rw [isRefused, hlookup] at hrefused
              exact hrefused
            have htaken := nakedFirst_of_plain hplain hnaked hnil hallowed
            exact List.mem_map_of_mem
              (mem_fieldsOf.mpr ⟨htime, value, naked, hmem, htaken, typeOf_of_isNaked hkind⟩)

/-- Conforming messages are read back as they were, where no key has more than 255 different
strings or objects and no array more objects. -/
theorem readBack_present (uri : String) (additionalData : List (String × String))
    {messages : List Message} (hcount : messages.length ≤ maxMessageCount)
    (hconforms : Conforms messages) (hfits : FitsBytes messages) :
    ReadBack uri additionalData (presentValue (firstBody messages)) messages := by
  cases htaken : taken messages with
  | nil =>
    refine ⟨newEncoder uri additionalData, [], [], ?_, rfl, ?_, ?_⟩
    · rw [← Encoder.afterMessages_taken, htaken]
      rfl
    · have hzero : (newEncoder uri additionalData).numMessages ≤ maxMessageCount := Nat.zero_le _
      rw [Encoder.dataFile, KeyDecoder.decodeFimsMessages, fromBigEndian_header hzero]
      rfl
    · rw [htaken]
      exact .nil
  | cons message rest =>
    obtain ⟨now, bodyMap⟩ := message
    have hall : messages = (now, bodyMap) :: rest := by
      rw [← htaken]
      exact (hconforms.taken_eq (by rw [htaken]; exact List.cons_ne_nil _ _)).symm
    have hfirst : (now, bodyMap) ∈ messages := by
      rw [hall]
      exact List.mem_cons_self
    have hvalues : ∀ field ∈ fieldsOf bodyMap,
        FitsAfter field.2 [] [] (valuesIn ((now, bodyMap) :: rest) field.1) := by
      intro field hfield
      rw [← hall]
      exact fitsAfter_of_isNaked hfits (hconforms.of_mem_fieldsOf hfirst hfield).2.2
    have hbodies : ∀ message ∈ (now, bodyMap) :: rest, message.2 ≠ [] := by
      rw [← htaken]
      exact fun message => taken_nonempty
    obtain ⟨encoder, decoders, decoded, hrun, hdecoders, hdecoded, hread⟩ :=
      Encoder.afterMessages_decoded uri additionalData hbodies (hall ▸ hcount)
        (hconforms.distinct _ hfirst) (hconforms.not_clothedNull hfirst) hvalues
    refine ⟨encoder, decoders, decoded, hall ▸ hrun, hdecoders, hdecoded, ?_⟩
    rw [taken_first htaken, htaken]
    have hmember : ∀ message ∈ (now, bodyMap) :: rest, message ∈ messages := fun message =>
      hall ▸ id
    refine ((List.forall₂_and_left _ _).mpr ⟨hmember, hread⟩).imp ?_
    rintro message found ⟨hmessage, htime, hfields, hothers⟩
    refine ⟨htime, fun key => ?_⟩
    by_cases hkey : key ∈ (fieldsOf bodyMap).map Prod.fst
    · obtain ⟨⟨name, dataType⟩, hfield, rfl⟩ := List.mem_map.mp hkey
      obtain ⟨-, hrefused, htyped⟩ := hconforms.of_mem_fieldsOf hfirst hfield
      obtain ⟨naked, hplain, hin, hnaked⟩ := htyped message hmessage
      have hread := hfields (name, dataType) hfield
      rw [presentValue, hrefused, if_neg (by decide), hplain]
      rw [hin] at hread
      exact sameNaked_of_decoded hnaked hread
    · rw [hothers key hkey, hconforms.of_notMem_fieldsOf hfirst hkey hmessage]
      exact .none

/-- Messages that have one field, with values of one type. -/
theorem conforms_of_one (key : String) (dataType : DataType)
    (h : ∀ message ∈ messages, ∃ value naked, message.2 = [(key, value)] ∧
      isControl value = false ∧ nakedLater value = some naked ∧ IsNaked dataType naked) :
    Conforms messages where
  distinct := by
    intro message hmessage
    obtain ⟨value, naked, hbody, -⟩ := h message hmessage
    rw [hbody]
    exact List.nodup_singleton key
  keys := by
    intro message hmessage other hother name
    obtain ⟨value, naked, hbody, -⟩ := h message hmessage
    obtain ⟨held, found, hheld, -⟩ := h other hother
    rw [hbody, hheld]
    rfl
  types := by
    intro name _
    right
    refine ⟨dataType, fun message hmessage value hvalue => ?_⟩
    obtain ⟨held, naked, hbody, hcontrol, hnaked, hkind⟩ := h message hmessage
    have hmem := mem_of_lookup hvalue
    rw [hbody, List.mem_singleton, Prod.mk.injEq] at hmem
    rw [hmem.2]
    exact ⟨hcontrol, naked, hnaked, hkind⟩

/-- Two messages with a switch. -/
def switched : List Message :=
  [(1, [("switch", .string "on")]), (2, [("switch", .map [("value", .string "off")])])]

theorem switched_conforms : Conforms switched := by
  refine conforms_of_one "switch" .string fun message hmessage => ?_
  simp only [switched, List.mem_cons, List.not_mem_nil, or_false] at hmessage
  rcases hmessage with rfl | rfl
  · exact ⟨_, _, rfl, rfl, rfl, (by decide : containsIllegal "on" = false)⟩
  · exact ⟨_, _, rfl, rfl, rfl, (by decide : containsIllegal "off" = false)⟩

theorem switched_noObjects (hmessage : message ∈ switched) (key : String) :
    (plainValue message.2 key).bind asMaps = none := by
  cases hplain : plainValue message.2 key with
  | none => rfl
  | some naked =>
    rw [plainValue] at hplain
    split_ifs at hplain
    obtain ⟨value, hvalue, hnaked⟩ := Option.bind_eq_some_iff.mp hplain
    have hmem := mem_of_lookup hvalue
    simp only [switched, List.mem_cons, List.not_mem_nil, or_false] at hmessage
    rcases hmessage with rfl | rfl
    · rw [List.mem_singleton, Prod.mk.injEq] at hmem
      obtain ⟨-, rfl⟩ := hmem
      cases hnaked
      rfl
    · rw [List.mem_singleton, Prod.mk.injEq] at hmem
      obtain ⟨-, rfl⟩ := hmem
      cases hnaked
      rfl

theorem switched_fits : FitsBytes switched where
  strings := by
    intro key
    have hlen : (stringsUnder switched key).length ≤ 2 := List.length_filterMap_le _ _
    have htable : (enterAll sameString [] (stringsUnder switched key)).length ≤
        ([] : List String).length + (stringsUnder switched key).length := length_enterAll_le
    rw [List.length_nil] at htable
    omega
  objects := by
    intro key
    have hnone : objectsUnder switched key = [] := by
      rw [objectsUnder, List.flatMap_eq_nil_iff]
      intro message hmessage
      rw [switched_noObjects hmessage]
      rfl
    rw [hnone]
    decide
  arrays := by
    intro message hmessage key objects hobjects
    rw [switched_noObjects hmessage] at hobjects
    cases hobjects

theorem readBack_switched :
    ReadBack "/components/bms" [] (presentValue (firstBody switched)) switched :=
  readBack_present _ _ (by decide) switched_conforms switched_fits

/-- A message with a number equal to the marker of missing values. -/
def missingPower : List Message := [(1, [("active_power", .float64 missingFloatMarker)])]

/-- The number is not read back. -/
theorem missingPower_notReadBack :
    missingPower.length ≤ maxMessageCount ∧ Conforms missingPower ∧
      ¬ ReadBack "/components/bms" [] plainValue missingPower := by
  refine ⟨by decide, ?_, ?_⟩
  · refine conforms_of_one "active_power" .float64 fun message hmessage => ?_
    rw [missingPower, List.mem_singleton] at hmessage
    subst hmessage
    exact ⟨_, _, rfl, rfl, rfl, trivial⟩
  · rintro ⟨encoder, decoders, decoded, hrun, hdecoders, hdecoded, hread⟩
    have hencoder : (newEncoder "/components/bms" []).afterMessages missingPower =
        some ⟨"/components/bms", [⟨"active_power", .float64, [], []⟩], [],
          bigEndian 1 ++ bigEndian missingFloatMarker, 1⟩ := rfl
    rw [hencoder, Option.some.injEq] at hrun
    subst hrun
    have hdecoder : Encoder.decoders ⟨"/components/bms", [⟨"active_power", .float64, [], []⟩], [],
          bigEndian 1 ++ bigEndian missingFloatMarker, 1⟩ =
        some [⟨"active_power", "float64", [], []⟩] := rfl
    rw [hdecoder, Option.some.injEq] at hdecoders
    subst hdecoders
    have hnothing : KeyDecoder.decodeFimsMessages [⟨"active_power", "float64", [], []⟩]
        (Encoder.dataFile ⟨"/components/bms", [⟨"active_power", .float64, [], []⟩], [],
          bigEndian 1 ++ bigEndian missingFloatMarker, 1⟩) = some ([(1, [])], []) := rfl
    rw [hnothing, Option.some.injEq, Prod.mk.injEq] at hdecoded
    rw [← hdecoded.1] at hread
    have hvalue := (List.forall₂_cons.mp hread).1.2 "active_power"
    have hplain : plainValue [("active_power", .float64 missingFloatMarker)] "active_power" =
        some (.float64 missingFloatMarker) := rfl
    dsimp only at hvalue
    rw [hplain] at hvalue
    cases hvalue

end HybridOs.FimsCodec
