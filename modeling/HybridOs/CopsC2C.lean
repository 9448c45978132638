import HybridOs.BufferedReader
import HybridOs.DecimalText

/-!
# Framing of controller-to-controller messages

A message travels as a start word, the decimal length of its body, a space and the body.
The receiver opens a new buffered reader on the connection for every message and drops it
with whatever it has buffered, so what a read took beyond the end of a message is lost.
-/

namespace HybridOs.CopsC2C

open BufferedReader DecimalText

/-! ## Sending -/

/-- `startWord`: the bytes of "C2C". -/
def startWord : List UInt8 := [67, 50, 67]

/-- `bufferSize`. -/
def bufferSize : ℕ := 65536

/-- The byte that ends the length of a message. -/
def spaceByte : UInt8 := 32

/-- A message body, no longer than an `int` can say. -/
structure Body where
  /-- The bytes of the body. -/
  bytes : List UInt8
  length_lt : bytes.length < 2 ^ 63

/-- The start word and the length that precede a body. -/
def msgHeader (msgBody : Body) : List UInt8 :=
  startWord ++ itoa msgBody.bytes.length ++ [spaceByte]

/-- What a connection carries for a body. -/
def frame (msgBody : Body) : List UInt8 := msgHeader msgBody ++ msgBody.bytes

/-- `sendC2CMsg`: the bytes it writes to the connection. -/
def sendC2CMsg (connected : Bool) (msgBody : Body) : List UInt8 :=
  if connected then frame msgBody else []

/-! ## Receiving -/

/-- Why a message is not returned. -/
inductive C2CError where
  /-- The connection brought no start word in time. -/
  | connection
  /-- The message started with other bytes. -/
  | startWord (startOfMsg : List UInt8)
  /-- The length was not read, or is no number. -/
  | messageSize
  /-- The body did not come in time. -/
  | messageBuffer
  /-- A buffer of negative length was asked for. -/
  | panic
  deriving DecidableEq, Repr

/-- The receiving side of a connection. -/
structure C2C where
  /-- `connected`. -/
  connected : Bool
  /-- `eventConnectionCheck`. -/
  eventConnectionCheck : Bool
  /-- The fault events sent. -/
  sentEvents : List String
  /-- `tcpConnection`: what it will still deliver. -/
  tcpConnection : Stream

/-- `strings.Trim` of one byte. -/
def trim (cut : UInt8) (text : List UInt8) : List UInt8 :=
  ((text.dropWhile (· = cut)).reverse.dropWhile (· = cut)).reverse

/-- `parseC2CMsg`, on a reader that has buffered the start word. -/
def parseC2CMsg (reader : Reader) : Except C2CError (List UInt8) × Reader :=
  let msgSizeString := (reader.discard startWord.length).readString bufferSize spaceByte
  match msgSizeString.1 with
  | none => (.error .messageSize, msgSizeString.2)
  | some text =>
    match atoi (trim spaceByte text) with
    | none => (.error .messageSize, msgSizeString.2)
    | some msgSize =>
      if msgSize < 0 then (.error .panic, msgSizeString.2)
      else
        let msgBuffer := msgSizeString.2.readFull bufferSize msgSize.toNat
        match msgBuffer.1 with
        | none => (.error .messageBuffer, msgBuffer.2)
        | some msg => (.ok msg, msgBuffer.2)

/-- A first look at a connection that was never made sends a fault. -/
def checkConnectionEvent (c2c : C2C) : C2C :=
  if !c2c.eventConnectionCheck && !c2c.connected then
    { c2c with
      eventConnectionCheck := true
      sentEvents := c2c.sentEvents ++
        ["C2C is not currently connected. Potentially have two controllers in primary mode."] }
  else c2c

/-- The reading part of `getC2CMessage`: a new reader on the connection, which is dropped
with its buffer when the call ends. -/
def readC2CMessage (tcpConnection : Stream) : Except C2CError (List UInt8) × Stream :=
  let reader : Reader := ⟨[], tcpConnection⟩
  let startOfMsg := reader.peek bufferSize startWord.length
  match startOfMsg.1 with
  | none => (.error .connection, startOfMsg.2.source)
  | some start =>
    if start ≠ startWord then (.error (.startWord start), startOfMsg.2.source)
    else ((parseC2CMsg startOfMsg.2).1, (parseC2CMsg startOfMsg.2).2.source)

/-- `getC2CMessage`. -/
def getC2CMessage (c2c : C2C) : Except C2CError (List UInt8) × C2C :=
  let checked := checkConnectionEvent c2c
  if !checked.connected then (.ok [], checked)
  else
    let message := readC2CMessage checked.tcpConnection
    (message.1, { checked with tcpConnection := message.2 })

/-- What repeated calls of `getC2CMessage` return. -/
def received : ℕ → C2C → List (Except C2CError (List UInt8))
  | 0, _ => []
  | n + 1, c2c => (getC2CMessage c2c).1 :: received n (getC2CMessage c2c).2

/-- A connected receiver of a stream. -/
def onConnection (tcpConnection : Stream) : C2C := ⟨true, false, [], tcpConnection⟩

theorem getC2CMessage_onConnection (tcpConnection : Stream) :
    getC2CMessage (onConnection tcpConnection) =
      ((readC2CMessage tcpConnection).1, onConnection (readC2CMessage tcpConnection).2) := rfl

/-! ## When nothing is read past a message -/

/-- Where the first read of a segment that starts in a frame ends, if the segment is long
enough: a segment that brings the start word or the length is read up to a full buffer, one
that starts in the body is first asked for what the body still lacks. -/
def firstStop (msgBody : Body) (start : ℕ) : ℕ :=
  if start < startWord.length then bufferSize
  else if start < (msgHeader msgBody).length then startWord.length + bufferSize
  else start

/-- The segment across the end of a frame is not read past it: what the frame lacks behind
its first read is nothing or does not fit the buffer. -/
def KeepsRest (msgBody : Body) (start : ℕ) : Prop :=
  firstStop msgBody start = (frame msgBody).length ∨
    firstStop msgBody start + bufferSize ≤ (frame msgBody).length

/-- Every frame of the bodies ends with its segment, or in a segment that is not read past
it. -/
def FramesKept : Stream → List Body → Prop
  | _, [] => True
  | source, msgBody :: bodies =>
    (∀ start, source.crossing (frame msgBody).length = some start → KeepsRest msgBody start) ∧
      FramesKept (source.skip (frame msgBody).length) bodies

/-!
## Messages received from a connection

Every frame is parsed to its body however it is segmented. The calls return exactly the
bodies sent when no read goes past the end of a frame, and only then: bytes read past it are
dropped with the reader, and what is left is too short for the bodies still to come.
-/

/-! ## One frame -/

theorem capacity_bufferSize : capacity bufferSize = bufferSize := by decide

theorem spaceByte_not_mem_itoa (n : ℕ) : spaceByte ∉ itoa n := by
  intro h
  exact absurd (mem_itoa h).1 (by decide)

theorem dropWhile_spaceByte {text : List UInt8} (hne : text ≠ []) (h : spaceByte ∉ text) :
    text.dropWhile (· = spaceByte) = text := by
  cases text with
  | nil => exact absurd rfl hne
  | cons c text =>
    have hc : c ≠ spaceByte := fun heq => h (heq ▸ List.mem_cons_self)
    rw [List.dropWhile_cons_of_neg (by simpa using hc)]

/-- The length read is the length written. -/
theorem trim_itoa (n : ℕ) : trim spaceByte (itoa n ++ [spaceByte]) = itoa n := by
  have hne := itoa_ne_nil n
  have hmem := spaceByte_not_mem_itoa n
  have hfront : (itoa n ++ [spaceByte]).dropWhile (· = spaceByte) = itoa n ++ [spaceByte] := by
    rw [List.dropWhile_append, dropWhile_spaceByte hne hmem]
    simp [hne]
  have hback : (itoa n).reverse.dropWhile (· = spaceByte) = (itoa n).reverse :=
    dropWhile_spaceByte (by simpa using hne) (by simpa using hmem)
  rw [trim, hfront, List.reverse_append, List.reverse_singleton, List.singleton_append,
    List.dropWhile_cons_of_pos (by simp), hback, List.reverse_reverse]

theorem itoa_length_body (msgBody : Body) : (itoa msgBody.bytes.length).length ≤ 19 := by
  apply itoa_length_le (by omega)
  have := msgBody.length_lt
  omega

theorem msgHeader_length (msgBody : Body) :
    (msgHeader msgBody).length = startWord.length + (itoa msgBody.bytes.length).length + 1 := by
  rw [msgHeader, List.length_append, List.length_append, List.length_singleton]

variable {reader : Reader} {msgBody : Body} {front source : Stream} {after rest : List UInt8}

/-- A message whose length and body are still to come is parsed to its body. -/
theorem parseC2CMsg_line
    (hline : ((reader.discard startWord.length).readString bufferSize spaceByte).1 =
      some (itoa msgBody.bytes.length ++ [spaceByte])) (hbody : msgBody.bytes.length ≤
      ((reader.discard startWord.length).readString bufferSize spaceByte).2.pending.length) :
    parseC2CMsg reader =
      (.ok (((reader.discard startWord.length).readString bufferSize spaceByte).2.pending.take
          msgBody.bytes.length),
        (((reader.discard startWord.length).readString bufferSize spaceByte).2.readFull
          bufferSize msgBody.bytes.length).2) := by
  have hsize := atoi_itoa msgBody.length_lt
  have hpos : ¬ (msgBody.bytes.length : ℤ) < 0 := by omega
  have hfull := Reader.readFull_spec bufferSize hbody
  rw [parseC2CMsg]
  simp only [hline, trim_itoa, hsize, hpos, if_false, Int.toNat_natCast, hfull]

/-- The reader of a message once the length is read. -/
def lengthRead (source : Stream) : Option (List UInt8) × Reader :=
  ((Reader.peek bufferSize startWord.length ⟨[], source⟩).2.discard
    startWord.length).readString bufferSize spaceByte

/-- A length within a front part of the stream is read from there. -/
theorem lengthRead_front (h : content front = msgHeader msgBody ++ after) (tail : Stream) :
    lengthRead (front ++ tail) = (some (itoa msgBody.bytes.length ++ [spaceByte]),
        (lengthRead front).2.withTail tail) ∧ (lengthRead front).2.pending = after := by
  have hpending : (Reader.mk [] front).pending = content front := by
    rw [Reader.pending, List.nil_append]
  have hword : startWord.length ≤ (Reader.mk [] front).pending.length := by
    rw [hpending, h, List.length_append, msgHeader_length]
    omega
  have hpeek := Reader.peek_withTail bufferSize hword (by decide) tail
  have hstart : (Reader.mk [] front).withTail tail = ⟨[], front ++ tail⟩ := rfl
  rw [hstart] at hpeek
  have hdiscard : ((Reader.peek bufferSize startWord.length ⟨[], front⟩).2.discard
      startWord.length).pending = itoa msgBody.bytes.length ++ spaceByte :: after := by
    rw [Reader.discard_pending hpeek.2, Reader.peek_pending, hpending, h, msgHeader,
      List.append_assoc, List.append_assoc, List.drop_left, List.singleton_append]
  have hline := Reader.readString_withTail bufferSize hdiscard
    (spaceByte_not_mem_itoa _)
    (lt_of_le_of_lt (itoa_length_body msgBody) (by decide)) tail
  rw [← Reader.discard_withTail] at hline
  rw [lengthRead, lengthRead, hpeek.1]
  exact hline

/-- A frame at the front of the stream is returned as its body. -/
theorem readC2CMessage_frame (h : content source = frame msgBody ++ rest) :
    readC2CMessage source = (.ok msgBody.bytes,
        ((lengthRead source).2.readFull bufferSize msgBody.bytes.length).2.source) ∧
      ((lengthRead source).2.readFull bufferSize msgBody.bytes.length).2.pending = rest := by
  have hheader : content source = msgHeader msgBody ++ (msgBody.bytes ++ rest) := by
    rw [h, frame, List.append_assoc]
  have hread := lengthRead_front hheader []
  rw [List.append_nil, Reader.withTail_nil] at hread
  have hword : startWord.length ≤ (Reader.mk [] source).pending.length := by
    rw [Reader.pending, List.nil_append, hheader, List.length_append, msgHeader_length]
    omega
  have hpeek := (Reader.peek_withTail bufferSize hword (by decide) []).1
  have hstart : (Reader.mk [] source).pending.take startWord.length = startWord := by
    rw [Reader.pending, List.nil_append, hheader, msgHeader, List.append_assoc,
      List.append_assoc, List.take_left]
  rw [Reader.withTail_nil, Reader.withTail_nil, hstart] at hpeek
  have hlength : msgBody.bytes.length ≤ (lengthRead source).2.pending.length := by
    rw [hread.2, List.length_append]
    omega
  have hparse := parseC2CMsg_line (by rw [← lengthRead, hread.1]) hlength
  rw [← lengthRead, hread.2, List.take_left] at hparse
  have hfull := Reader.readFull_pending (Reader.readFull_spec bufferSize hlength)
  constructor
  · rw [readC2CMessage, hpeek]
    simp only [ne_eq, not_true_eq_false, if_false, hparse]
  · rw [hread.2, List.take_left] at hfull
    exact (List.append_cancel_left hfull.1).symm

/-! ## What is read past a frame -/

/-- A segment that starts within the start word is read up to a full buffer. -/
theorem lengthRead_startWord {segment : Segment} {tail : Stream}
    (hstart : (content front).length < startWord.length)
    (h : content front ++ segment.bytes.take (bufferSize - (content front).length) =
      msgHeader msgBody ++ after) :
    (lengthRead (front ++ segment :: tail)).2 =
      ⟨after, (Stream.read (bufferSize - (content front).length) (segment :: tail)).2⟩ := by
  have hpending : (Reader.mk [] front).pending = content front := by
    rw [Reader.pending, List.nil_append]
  have hlong : startWord.length ≤ (msgHeader msgBody ++ after).length := by
    rw [List.length_append, msgHeader_length]
    omega
  have hfill := Reader.fillUntil_segment bufferSize
    (fun buffered => startWord.length ≤ buffered.length) (r := ⟨[], front⟩) segment tail
    (fun k => by
      rw [hpending, decide_eq_true_eq, List.length_take]
      omega)
    (by rw [hpending, capacity_bufferSize]; exact lt_trans hstart (by decide))
    (by rw [hpending, capacity_bufferSize, h, decide_eq_true_eq]; exact hlong)
  rw [hpending, capacity_bufferSize, h] at hfill
  have hpeek : (Reader.peek bufferSize startWord.length ⟨[], front ++ segment :: tail⟩).2 =
      ⟨msgHeader msgBody ++ after,
        (Stream.read (bufferSize - (content front).length) (segment :: tail)).2⟩ := by
    have hstart' : (Reader.mk [] front).withTail (segment :: tail) =
        ⟨[], front ++ segment :: tail⟩ := rfl
    rw [Reader.peek, ← hstart', hfill]
    simp only [hlong, if_true]
  have hdrop : (msgHeader msgBody ++ after).drop startWord.length =
      itoa msgBody.bytes.length ++ spaceByte :: after := by
    rw [msgHeader, List.append_assoc, List.append_assoc, List.drop_left, List.singleton_append]
  have hcontains : (itoa msgBody.bytes.length ++ spaceByte :: after).contains spaceByte = true := by
    rw [List.contains_iff_mem]
    exact List.mem_append_right _ List.mem_cons_self
  rw [lengthRead, hpeek, Reader.discard, hdrop,
    Reader.readString_filled (spaceByte_not_mem_itoa _)]
  rw [Reader.fillUntil, if_pos (Or.inl hcontains)]

/-- A segment that starts within the length is read up to a full buffer without the start
word. -/
theorem lengthRead_length {segment : Segment} {tail : Stream}
    (hword : startWord.length ≤ (content front).length)
    (hstart : (content front).length < (msgHeader msgBody).length) (h : content front ++
        segment.bytes.take (startWord.length + bufferSize - (content front).length) =
      msgHeader msgBody ++ after) :
    (lengthRead (front ++ segment :: tail)).2 =
      ⟨after, (Stream.read (startWord.length + bufferSize - (content front).length)
        (segment :: tail)).2⟩ := by
  have hpending : (Reader.mk [] front).pending = content front := by
    rw [Reader.pending, List.nil_append]
  have hwhole : msgHeader msgBody ++ after =
      startWord ++ (itoa msgBody.bytes.length ++ spaceByte :: after) := by
    rw [msgHeader, List.append_assoc, List.append_assoc, List.singleton_append]
  have hheader := msgHeader_length msgBody
  have hdigits := itoa_length_body msgBody
  obtain ⟨digits, hfront⟩ : startWord <+: content front :=
    List.prefix_of_prefix_length_le (hwhole ▸ List.prefix_append _ _) ⟨_, h⟩ hword
  have hlength := congrArg List.length hfront
  rw [List.length_append] at hlength
  have hroom : startWord.length + bufferSize - (content front).length =
      bufferSize - digits.length := by omega
  rw [hwhole, hroom, ← hfront, List.append_assoc] at h
  have hrest := List.append_cancel_left h
  have hdigit : digits <+: itoa msgBody.bytes.length :=
    List.prefix_of_prefix_length_le ⟨_, hrest⟩ (List.prefix_append _ _) (by omega)
  have hpeek := Reader.peek_withTail bufferSize (r := ⟨[], front⟩)
    (show startWord.length ≤ (Reader.mk [] front).pending.length by rwa [hpending])
    (by decide) (segment :: tail)
  have hdiscard : ((Reader.peek bufferSize startWord.length ⟨[], front⟩).2.discard
      startWord.length).pending = digits := by
    rw [Reader.discard_pending hpeek.2, Reader.peek_pending, hpending, ← hfront, List.drop_left]
  have hfill := Reader.fillUntil_segment bufferSize (fun buffered => buffered.contains spaceByte)
    (r := (Reader.peek bufferSize startWord.length ⟨[], front⟩).2.discard startWord.length)
    segment tail (fun k => by
      rw [hdiscard, List.contains_iff_mem]
      exact fun hmem => spaceByte_not_mem_itoa _ (hdigit.subset (List.mem_of_mem_take hmem)))
    (by rw [hdiscard, capacity_bufferSize]; exact lt_of_le_of_lt (by omega : digits.length ≤ 19)
          (by decide))
    (by
      rw [hdiscard, capacity_bufferSize, hrest, List.contains_iff_mem]
      exact List.mem_append_right _ List.mem_cons_self)
  rw [hdiscard, capacity_bufferSize, hrest] at hfill
  have hstart' : (Reader.mk [] front).withTail (segment :: tail) =
      ⟨[], front ++ segment :: tail⟩ := rfl
  rw [hstart'] at hpeek
  rw [lengthRead, hpeek.1, Reader.discard_withTail,
    Reader.readString_filled (spaceByte_not_mem_itoa _) hfill, hroom]

/-- The buffer is empty after a frame exactly if no segment across its end is read past
it. -/
theorem buffered_eq_nil_iff (h : content source = frame msgBody ++ rest) :
    ((lengthRead source).2.readFull bufferSize msgBody.bytes.length).2.buffered = [] ↔
      ∀ start, source.crossing (frame msgBody).length = some start → KeepsRest msgBody start := by
  have hframe : (frame msgBody).length =
      (msgHeader msgBody).length + msgBody.bytes.length := List.length_append
  have hheader : msgHeader msgBody <+: content source := by
    rw [h, frame, List.append_assoc]
    exact List.prefix_append _ _
  cases hcrossing : source.crossing (frame msgBody).length with
  | none =>
    obtain ⟨front, tail, rfl, hlength⟩ := Stream.of_crossing_none hcrossing
      (by rw [h, List.length_append]; omega)
    rw [content_append] at h
    have hfront := List.append_inj_left h hlength
    rw [frame] at hfront
    have hread := lengthRead_front hfront tail
    have hpast := Reader.readFull_past bufferSize tail (r := (lengthRead front).2)
      (show (lengthRead front).2.pending.length ≤ msgBody.bytes.length by rw [hread.2])
    rw [hread.2, Nat.sub_self, Reader.readFull_zero] at hpast
    simp only [hread.1, hpast, reduceCtorEq, false_imp_iff, implies_true]
  | some start =>
    obtain ⟨front, segment, tail, rfl, rfl, hbefore, hafter⟩ := Stream.of_crossing_some hcrossing
    simp only [Option.some.injEq, forall_eq']
    rw [KeepsRest, firstStop]
    have hlength := msgHeader_length msgBody
    have hdigits := itoa_length_body msgBody
    have hsize : 23 < bufferSize := by decide
    have hword : startWord.length = 3 := rfl
    have hcontent : content (front ++ segment :: tail) =
        content front ++ segment.bytes ++ content tail := by
      rw [content_append, content_cons, List.append_assoc]
    have hread : ∀ room, content front ++ segment.bytes.take room <+:
        content (front ++ segment :: tail) := by
      intro room
      rw [hcontent]
      exact (List.prefix_append_right_inj _).mpr (List.take_prefix _ _) |>.trans
        (List.prefix_append _ _)
    split_ifs with hfirst hsecond
    · have hpart : msgHeader msgBody <+:
          content front ++ segment.bytes.take (bufferSize - (content front).length) := by
        refine List.prefix_of_prefix_length_le hheader (hread _) ?_
        rw [List.length_append, List.length_take]
        omega
      obtain ⟨after, heq⟩ := hpart
      have hafterDrop : after = (content front ++
          segment.bytes.take (bufferSize - (content front).length)).drop
            (msgHeader msgBody).length := by
        rw [← heq, List.drop_left]
      have hover := @Reader.readFull_overlap bufferSize msgBody.bytes.length
        (bufferSize - (content front).length) (msgHeader msgBody).length (content front) segment
        tail (by omega) (by omega)
      rw [lengthRead_startWord hfirst heq.symm, hafterDrop, hover, capacity_bufferSize]
      omega
    · have hpart : msgHeader msgBody <+: content front ++
          segment.bytes.take (startWord.length + bufferSize - (content front).length) := by
        refine List.prefix_of_prefix_length_le hheader (hread _) ?_
        rw [List.length_append, List.length_take]
        omega
      obtain ⟨after, heq⟩ := hpart
      have hafterDrop : after = (content front ++ segment.bytes.take
          (startWord.length + bufferSize - (content front).length)).drop
            (msgHeader msgBody).length := by
        rw [← heq, List.drop_left]
      have hover := @Reader.readFull_overlap bufferSize msgBody.bytes.length
        (startWord.length + bufferSize - (content front).length) (msgHeader msgBody).length
        (content front) segment tail (by omega) (by omega)
      rw [lengthRead_length (Nat.not_lt.mp hfirst) hsecond heq.symm, hafterDrop, hover,
        capacity_bufferSize]
      omega
    · have hpart : msgHeader msgBody <+: content front := by
        refine List.prefix_of_prefix_length_le hheader ?_ (Nat.not_lt.mp hsecond)
        rw [content_append]
        exact List.prefix_append _ _
      obtain ⟨after, heq⟩ := hpart
      have hfront := lengthRead_front heq.symm (segment :: tail)
      have hlengths := congrArg List.length heq
      rw [List.length_append] at hlengths
      have hpast := Reader.readFull_past bufferSize (segment :: tail) (r := (lengthRead front).2)
        (show (lengthRead front).2.pending.length ≤ msgBody.bytes.length by rw [hfront.2]; omega)
      rw [hfront.2] at hpast
      have hsegment := @Reader.readFull_segment bufferSize (msgBody.bytes.length - after.length)
        segment tail (by omega) (by omega)
      simp only [hfront.1, hpast, hsegment.2, capacity_bufferSize]
      omega

/-! ## What a message takes -/

/-- The space that ends a length is trimmed off. -/
theorem trim_length_lt (before : List UInt8) :
    (trim spaceByte (before ++ [spaceByte])).length < (before ++ [spaceByte]).length := by
  have hfront := List.dropWhile_suffix (l := before ++ [spaceByte]) (· = spaceByte)
  rw [trim, List.length_reverse]
  generalize (before ++ [spaceByte]).dropWhile (· = spaceByte) = rest at hfront ⊢
  obtain ⟨dropped, hdropped⟩ := hfront
  rcases List.eq_nil_or_concat rest with rfl | ⟨front, last, rfl⟩
  · simp
  · have hlast : last = spaceByte := by
      have h := congrArg List.getLast? hdropped
      simpa using h
    have hlength := congrArg List.length hdropped
    have hback := (List.dropWhile_suffix (l := front.reverse) (· = spaceByte)).length_le
    subst hlast
    rw [List.concat_eq_append, List.reverse_append, List.reverse_singleton, List.singleton_append,
      List.dropWhile_cons_of_pos (by simp)]
    simp only [List.length_append, List.length_reverse, List.concat_eq_append,
      List.length_singleton] at hlength hback ⊢
    omega

/-- A body parsed has taken at least its length and itself from the reader. -/
theorem parseC2CMsg_takes (hword : startWord.length ≤ reader.buffered.length)
    (h : (parseC2CMsg reader).1 = .ok msgBody.bytes) :
    (frame msgBody).length + (content (parseC2CMsg reader).2.source).length ≤
      reader.pending.length := by
  have hdiscard := congrArg List.length (Reader.discard_pending hword)
  rw [List.length_drop] at hdiscard
  have hbuffered : reader.buffered.length ≤ reader.pending.length := by
    rw [Reader.pending, List.length_append]
    omega
  rw [parseC2CMsg] at h ⊢
  revert h
  dsimp only
  split
  · exact fun h => absurd h (by simp)
  · next line hline =>
    have htaken := congrArg List.length (Reader.readString_pending hline)
    rw [List.length_append] at htaken
    obtain ⟨before, rfl⟩ := Reader.readString_ends hline
    have htrim := trim_length_lt before
    split
    · exact fun h => absurd h (by simp)
    · next msgSize hsize =>
      split_ifs with hneg
      · exact fun h => absurd h (by simp)
      · split
        · exact fun h => absurd h (by simp)
        · next msg hmsg =>
          intro h
          have hsame : msg = msgBody.bytes := by simpa using h
          obtain ⟨hfull, hlength⟩ := Reader.readFull_pending hmsg
          have hpending := congrArg List.length hfull
          rw [List.length_append] at hpending
          have hsource : ∀ r : Reader, (content r.source).length ≤ r.pending.length := by
            intro r
            rw [Reader.pending, List.length_append]
            omega
          have hleft := hsource (Reader.readFull bufferSize msgSize.toNat
            ((reader.discard startWord.length).readString bufferSize spaceByte).2).2
          have hcount : msgSize = (msgBody.bytes.length : ℤ) := by
            rw [← hsame, hlength]
            omega
          rw [hcount] at hsize
          have hdigits := itoa_length_le_of_atoi hsize
          rw [frame, List.length_append, msgHeader_length]
          rw [hsame] at hpending
          dsimp only
          omega

/-- A message returned has taken at least its frame from the connection. -/
theorem readC2CMessage_takes (h : (readC2CMessage source).1 = .ok msgBody.bytes) :
    (frame msgBody).length + (content (readC2CMessage source).2).length ≤
      (content source).length := by
  have hpending := Reader.peek_pending bufferSize startWord.length ⟨[], source⟩
  have hstart : (Reader.mk [] source).pending = content source := by
    rw [Reader.pending, List.nil_append]
  rw [hstart] at hpending
  rw [← hpending]
  rw [readC2CMessage] at h ⊢
  revert h
  split
  · exact fun h => absurd h (by simp)
  · next start hpeek =>
    split_ifs with hword
    · exact fun h => absurd h (by simp)
    · intro h
      refine parseC2CMsg_takes ?_ h
      rw [Reader.peek] at hpeek ⊢
      split_ifs at hpeek ⊢ with hlong
      · exact hlong

/-- The bodies returned fit in what the connection had. -/
theorem received_takes {bodies : List Body} (h : received bodies.length (onConnection source) =
      bodies.map fun msgBody => .ok msgBody.bytes) :
    (bodies.flatMap frame).length ≤ (content source).length := by
  induction bodies generalizing source with
  | nil => exact Nat.zero_le _
  | cons msgBody bodies ih =>
    rw [List.length_cons, received, getC2CMessage_onConnection, List.map_cons] at h
    have htakes := readC2CMessage_takes (List.cons.inj h).1
    have hrest := ih (List.cons.inj h).2
    rw [List.flatMap_cons, List.length_append]
    omega

/-! ## Every message -/

/-- The connection left by a message is what it had, without a front part. -/
theorem leftOf_lengthRead_readFull (source : Stream) (want : ℕ) :
    LeftOf ⟨[], source⟩ ((lengthRead source).2.readFull bufferSize want).2 :=
  (((Reader.leftOf_peek _ _ _).trans (Reader.leftOf_discard _ _)).trans
    (Reader.leftOf_readString _ _ _)).trans (Reader.leftOf_readFull _ _ _)

/-- When nothing was read past a frame, the connection has lost exactly the frame. -/
theorem source_of_empty {front : List UInt8} (hleft : LeftOf ⟨[], source⟩ reader)
    (hbuffered : reader.buffered = []) (hcontent : content source = front ++ rest)
    (hpending : reader.pending = rest) : reader.source = source.skip front.length := by
  obtain ⟨n, hn⟩ := hleft
  rw [Reader.pending, hbuffered, List.nil_append, hn, Stream.content_skip, hcontent] at hpending
  have hlength := congrArg List.length hpending
  rw [List.length_drop, List.length_append] at hlength
  rw [hn]
  by_cases hrest : rest = []
  · have hzero : rest.length = 0 := by rw [hrest, List.length_nil]
    have hnil : ∀ k, front.length ≤ k → source.skip k = [] := by
      intro k hk
      rw [← content_eq_nil, Stream.content_skip, hcontent, List.drop_eq_nil_iff,
        List.length_append]
      omega
    rw [hnil _ (le_refl _), hnil n (by omega)]
  · have hpos := List.length_pos_of_ne_nil hrest
    congr 1
    omega

/-- Calls return exactly the bodies sent, in order, if and only if no read goes past the end
of a frame. -/
theorem received_eq_bodies_iff (bodies : List Body) (source : Stream)
    (h : content source = bodies.flatMap (sendC2CMsg true)) :
    received bodies.length (onConnection source) =
        bodies.map (fun msgBody => .ok msgBody.bytes) ↔ FramesKept source bodies := by
  induction bodies generalizing source with
  | nil => exact ⟨fun _ => trivial, fun _ => rfl⟩
  | cons msgBody bodies ih =>
    have hcontent : content source = frame msgBody ++ bodies.flatMap (sendC2CMsg true) := h
    obtain ⟨hread, hpending⟩ := readC2CMessage_frame hcontent
    have hempty := buffered_eq_nil_iff hcontent
    rw [List.length_cons, received, getC2CMessage_onConnection, List.map_cons, hread,
      List.cons.injEq, FramesKept, ← hempty]
    have hleft := leftOf_lengthRead_readFull source msgBody.bytes.length
    generalize ((lengthRead source).2.readFull bufferSize msgBody.bytes.length).2 = reader at *
    constructor
    · rintro ⟨-, hrest⟩
      have htakes := congrArg List.length hpending
      have hbound : (bodies.flatMap frame).length ≤ (content reader.source).length :=
        received_takes hrest
      rw [Reader.pending, List.length_append] at htakes
      have hbuffered : reader.buffered = [] := by
        apply List.eq_nil_of_length_eq_zero
        have hsame : bodies.flatMap (sendC2CMsg true) = bodies.flatMap frame := rfl
        rw [hsame] at htakes
        omega
      refine ⟨hbuffered, ?_⟩
      rw [← source_of_empty hleft hbuffered hcontent hpending, ← ih]
      · exact hrest
      · rw [← hpending, Reader.pending, hbuffered, List.nil_append]
    · rintro ⟨hbuffered, hkept⟩
      refine ⟨rfl, ?_⟩
      rw [← source_of_empty hleft hbuffered hcontent hpending] at hkept
      rw [ih]
      · exact hkept
      · rw [← hpending, Reader.pending, hbuffered, List.nil_append]

/-! ## Two messages in one segment -/

/-- The body of a mode query. -/
def modeQuery : Body := ⟨"ModeQuery".toUTF8.toList, by decide +kernel⟩

/-- The body of a request for the other controller's settings. -/
def getDBIUpdate : Body := ⟨"GetDBIUpdate".toUTF8.toList, by decide +kernel⟩

/-- Both messages, each in its own segment. -/
def apart : Stream :=
  [⟨frame modeQuery, by decide +kernel⟩, ⟨frame getDBIUpdate, by decide +kernel⟩]

/-- Both messages in one segment. -/
def together : Stream := [⟨frame modeQuery ++ frame getDBIUpdate, by decide +kernel⟩]

theorem received_eq_bodies_iff_apart :
    content apart = [modeQuery, getDBIUpdate].flatMap (sendC2CMsg true) ∧
      (received 2 (onConnection apart) = [.ok modeQuery.bytes, .ok getDBIUpdate.bytes] ↔
        FramesKept apart [modeQuery, getDBIUpdate]) :=
  ⟨by decide +kernel,
    received_eq_bodies_iff [modeQuery, getDBIUpdate] apart (by decide +kernel)⟩

/-- The second message of a segment is lost. -/
theorem together_loses_message :
    ¬ ∀ (bodies : List Body) (source : Stream),
      content source = bodies.flatMap (sendC2CMsg true) →
        received bodies.length (onConnection source) =
          bodies.map fun msgBody => .ok msgBody.bytes := by
  intro h
  have hreceived := h [modeQuery, getDBIUpdate] together (by decide +kernel)
  exact absurd hreceived (by decide +kernel)

end HybridOs.CopsC2C
