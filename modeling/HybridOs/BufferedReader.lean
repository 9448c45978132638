import Mathlib.Data.List.Basic
import Mathlib.Order.Basic

/-!
# Buffered reading of a segmented stream

A connection delivers bytes in segments, and one read returns bytes of one segment only. A
buffered reader asks for as many bytes as its buffer has room for, so it may take bytes that
lie beyond what its caller asked for. The lemmas say what every operation takes from a
front part of the stream, and what it takes from the segment behind it.
-/

namespace HybridOs.BufferedReader

/-! ## Streams -/

/-- Bytes that arrive together: never none. -/
structure Segment where
  /-- The bytes of the segment. -/
  bytes : List UInt8
  nonempty : bytes ≠ []

/-- The segments a connection will still deliver. -/
abbrev Stream := List Segment

/-- All bytes of a stream. -/
def content (source : Stream) : List UInt8 := source.flatMap Segment.bytes

/-- One read of at most `room` bytes, from the first segment. -/
def Stream.read (room : ℕ) : Stream → List UInt8 × Stream
  | [] => ([], [])
  | segment :: source =>
    if h : segment.bytes.drop room = [] then (segment.bytes, source)
    else (segment.bytes.take room, ⟨segment.bytes.drop room, h⟩ :: source)

@[simp]
theorem content_nil : content [] = [] := rfl

@[simp]
theorem content_cons (segment : Segment) (source : Stream) :
    content (segment :: source) = segment.bytes ++ content source := rfl

@[simp]
theorem content_append (front tail : Stream) :
    content (front ++ tail) = content front ++ content tail :=
  List.flatMap_append

variable {source : Stream} {n want : ℕ} {delim : UInt8} {before after : List UInt8}

theorem content_eq_nil : content source = [] ↔ source = [] := by
  cases source with
  | nil => simp
  | cons segment source => simp [segment.nonempty]

theorem segment_length_pos (segment : Segment) : 0 < segment.bytes.length :=
  List.length_pos_of_ne_nil segment.nonempty

/-- A read takes bytes off the front of the stream. -/
theorem Stream.read_content (room : ℕ) (source : Stream) :
    (source.read room).1 ++ content (source.read room).2 = content source := by
  cases source with
  | nil => rfl
  | cons segment source =>
    rw [Stream.read]
    split_ifs with h
    · rfl
    · simp only [content_cons, ← List.append_assoc, List.take_append_drop]

/-- A read with room takes something from a stream that has something. -/
theorem Stream.read_ne_nil {room : ℕ} (hroom : 0 < room) (hsource : source ≠ []) :
    (source.read room).1 ≠ [] := by
  cases source with
  | nil => exact absurd rfl hsource
  | cons segment source =>
    rw [Stream.read]
    split_ifs with h
    · exact segment.nonempty
    · have hlength := segment_length_pos segment
      rw [ne_eq, List.take_eq_nil_iff]
      rintro (hzero | hnil)
      · omega
      · exact segment.nonempty hnil

theorem Stream.read_length_le (room : ℕ) (source : Stream) :
    (source.read room).1.length ≤ room := by
  cases source with
  | nil => exact Nat.zero_le _
  | cons segment source =>
    rw [Stream.read]
    split_ifs with h
    · exact List.drop_eq_nil_iff.mp h
    · rw [List.length_take]
      omega

/-- What a read returns of a stream with a first segment. -/
theorem Stream.read_head (room : ℕ) (segment : Segment) (source : Stream) :
    (Stream.read room (segment :: source)).1 = segment.bytes.take room := by
  rw [Stream.read]
  split_ifs with h
  · exact (List.take_of_length_le (List.drop_eq_nil_iff.mp h)).symm
  · rfl

/-- A read of a stream with a front takes from the front only. -/
theorem Stream.read_front {room : ℕ} {front : Stream} (hfront : front ≠ []) (tail : Stream) :
    (front ++ tail : Stream).read room = ((front.read room).1, (front.read room).2 ++ tail) := by
  cases front with
  | nil => exact absurd rfl hfront
  | cons segment front =>
    simp only [List.cons_append, Stream.read]
    split_ifs <;> rfl

/-! ## The reader -/

/-- A buffered reader: what it has read and not handed out, and what is still to come. -/
structure Reader where
  /-- The bytes read and not handed out. -/
  buffered : List UInt8
  /-- What the connection will still deliver. -/
  source : Stream

/-- The bytes a buffer of the asked size holds: at least 16. -/
def capacity (size : ℕ) : ℕ := max size 16

/-- All bytes a reader has still to hand out. -/
def Reader.pending (r : Reader) : List UInt8 := r.buffered ++ content r.source

/-- One read into the free part of the buffer. -/
def Reader.fill (size : ℕ) (r : Reader) : Reader :=
  ⟨r.buffered ++ (r.source.read (capacity size - r.buffered.length)).1,
    (r.source.read (capacity size - r.buffered.length)).2⟩

variable (size : ℕ)

theorem capacity_pos : 0 < capacity size := by
  rw [capacity]
  omega

variable (r : Reader)

@[simp]
theorem Reader.fill_pending : (r.fill size).pending = r.pending := by
  rw [Reader.fill, Reader.pending, Reader.pending, List.append_assoc, Stream.read_content]

/-- Filling a buffer with room leaves less to come. -/
theorem Reader.fill_lt {size : ℕ} {r : Reader} (hroom : r.buffered.length < capacity size)
    (hsource : r.source ≠ []) :
    (content (r.fill size).source).length < (content r.source).length := by
  have hcontent := congrArg List.length
    (Stream.read_content (capacity size - r.buffered.length) r.source)
  have hsome : (r.source.read (capacity size - r.buffered.length)).1 ≠ [] :=
    Stream.read_ne_nil (by omega) hsource
  have hpos := List.length_pos_of_ne_nil hsome
  rw [List.length_append] at hcontent
  dsimp only [Reader.fill]
  omega

/-- Fill until the buffer is as wanted, is full, or nothing more comes. -/
def Reader.fillUntil (size : ℕ) (wanted : List UInt8 → Bool) (r : Reader) : Reader :=
  if wanted r.buffered ∨ capacity size ≤ r.buffered.length ∨ r.source.isEmpty then r
  else (r.fill size).fillUntil size wanted
termination_by (content r.source).length
decreasing_by
  rename_i h
  simp only [not_or, Nat.not_le, List.isEmpty_iff] at h
  exact Reader.fill_lt h.2.1 h.2.2

variable (wanted : List UInt8 → Bool)

/-- Filling loses nothing. -/
@[simp]
theorem Reader.fillUntil_pending (r : Reader) : (r.fillUntil size wanted).pending = r.pending := by
  fun_induction Reader.fillUntil size wanted r with
  | case1 r h => rfl
  | case2 r h ih => rw [ih, Reader.fill_pending]

/-- Look at the next `n` bytes. -/
def Reader.peek (size n : ℕ) (r : Reader) : Option (List UInt8) × Reader :=
  let filled := r.fillUntil size fun buffered => n ≤ buffered.length
  if n ≤ filled.buffered.length then (some (filled.buffered.take n), filled)
  else (none, filled)

/-- Hand out and drop buffered bytes. -/
def Reader.discard (n : ℕ) (r : Reader) : Reader := { r with buffered := r.buffered.drop n }

/-- The bytes up to and with the first delimiter. -/
def throughDelim (delim : UInt8) (bytes : List UInt8) : List UInt8 :=
  bytes.take (bytes.idxOf delim + 1)

/-- Read up to and with the delimiter, in as many full buffers as it takes. -/
def Reader.readString (size : ℕ) (delim : UInt8) (r : Reader) : Option (List UInt8) × Reader :=
  let filled := r.fillUntil size fun buffered => buffered.contains delim
  if filled.buffered.contains delim then
    let line := throughDelim delim filled.buffered
    (some line, filled.discard line.length)
  else if capacity size ≤ filled.buffered.length then
    let rest := Reader.readString size delim { filled with buffered := [] }
    (rest.1.map (filled.buffered ++ ·), rest.2)
  else (none, { filled with buffered := [] })
termination_by r.pending.length
decreasing_by
  rename_i hfull
  have hcapacity := capacity_pos size
  have hpending : filled.pending.length = r.pending.length := by
    rw [Reader.fillUntil_pending]
  rw [Reader.pending, List.length_append] at hpending
  have hless : (([] : List UInt8) ++ content filled.source).length < r.pending.length := by
    rw [List.nil_append]
    omega
  exact hless

/-- Read at most `want` bytes: from the buffer if it holds any, past it if the request is at
least as large as the buffer, else through one read into the buffer. -/
def Reader.read (size want : ℕ) (r : Reader) : List UInt8 × Reader :=
  if r.buffered ≠ [] then (r.buffered.take want, r.discard want)
  else if capacity size ≤ want then
    ((r.source.read want).1, ⟨[], (r.source.read want).2⟩)
  else
    (((r.source.read (capacity size)).1).take want,
      ⟨((r.source.read (capacity size)).1).drop want, (r.source.read (capacity size)).2⟩)

/-- Read exactly `want` bytes. -/
def Reader.readFull (size want : ℕ) (r : Reader) : Option (List UInt8) × Reader :=
  if want = 0 then (some [], r)
  else
    let got := r.read size want
    if got.1 = [] then (none, got.2)
    else
      let rest := Reader.readFull size (want - got.1.length) got.2
      (rest.1.map (got.1 ++ ·), rest.2)
termination_by want
decreasing_by
  rename_i hwant h
  have hpos := List.length_pos_of_ne_nil h
  exact Nat.sub_lt (Nat.pos_of_ne_zero hwant) hpos

/-! ## Nothing is lost inside a reader -/

theorem Reader.peek_pending (n : ℕ) (r : Reader) : (r.peek size n).2.pending = r.pending := by
  rw [Reader.peek]
  split_ifs <;> exact Reader.fillUntil_pending _ _ _

theorem Reader.discard_pending {r : Reader} (h : n ≤ r.buffered.length) :
    (r.discard n).pending = r.pending.drop n := by
  rw [Reader.discard, Reader.pending, Reader.pending, List.drop_append_of_le_length h]

theorem throughDelim_eq_take (delim : UInt8) (bytes : List UInt8) :
    throughDelim delim bytes = bytes.take (throughDelim delim bytes).length := by
  rw [throughDelim, List.length_take, List.take_eq_take_min]

/-- A line read was next to come. -/
theorem Reader.readString_pending {size : ℕ} {r : Reader} {line : List UInt8}
    (h : (r.readString size delim).1 = some line) :
    r.pending = line ++ (r.readString size delim).2.pending := by
  fun_induction Reader.readString size delim r generalizing line with
  | case1 r filled hfound =>
    rename_i whole
    have hfilled : filled.pending = r.pending := Reader.fillUntil_pending _ _ _
    have htake : whole = filled.buffered.take whole.length := throughDelim_eq_take _ _
    rw [← Option.some.inj h, ← hfilled, Reader.pending, Reader.pending, Reader.discard,
      ← List.append_assoc]
    congr 1
    conv_lhs => rw [← List.take_append_drop whole.length filled.buffered, ← htake]
  | case2 r filled hfound hfull rest =>
    rename_i ih
    have hfilled : filled.pending = r.pending := Reader.fillUntil_pending _ _ _
    obtain ⟨more, hmore, rfl⟩ := Option.map_eq_some_iff.mp h
    have hrest := ih hmore
    rw [Reader.pending, List.nil_append] at hrest
    rw [← hfilled, Reader.pending, hrest, List.append_assoc]
  | case3 r filled hfound => exact absurd h (by simp)

/-- A line read ends with the delimiter. -/
theorem Reader.readString_ends {size : ℕ} {r : Reader} {line : List UInt8}
    (h : (r.readString size delim).1 = some line) : ∃ before, line = before ++ [delim] := by
  fun_induction Reader.readString size delim r generalizing line with
  | case1 r filled hfound =>
    have hmem := List.idxOf_lt_length_of_mem (List.contains_iff_mem.mp hfound)
    refine ⟨filled.buffered.take (filled.buffered.idxOf delim), ?_⟩
    rw [← Option.some.inj h]
    show throughDelim delim filled.buffered = _
    rw [throughDelim, List.take_add_one, List.getElem?_eq_getElem hmem, List.getElem_idxOf hmem]
    rfl
  | case2 r filled hfound hfull rest =>
    rename_i ih
    obtain ⟨more, hmore, rfl⟩ := Option.map_eq_some_iff.mp h
    obtain ⟨before, rfl⟩ := ih hmore
    exact ⟨filled.buffered ++ before, (List.append_assoc _ _ _).symm⟩
  | case3 r filled hfound => exact absurd h (by simp)

/-- What one read hands out was next to come. -/
theorem Reader.read_pending (want : ℕ) (r : Reader) :
    r.pending = (r.read size want).1 ++ (r.read size want).2.pending := by
  rw [Reader.read]
  split_ifs with hbuffered hlarge
  · rw [Reader.pending, Reader.pending, Reader.discard, ← List.append_assoc,
      List.take_append_drop]
  · rw [Reader.pending, Reader.pending, not_not.mp hbuffered, List.nil_append, List.nil_append,
      Stream.read_content]
  · rw [Reader.pending, Reader.pending, not_not.mp hbuffered, List.nil_append,
      ← List.append_assoc, List.take_append_drop, Stream.read_content]

theorem Reader.read_length_le (want : ℕ) (r : Reader) : (r.read size want).1.length ≤ want := by
  rw [Reader.read]
  split_ifs
  · exact List.length_take_le _ _
  · exact Stream.read_length_le _ _
  · exact List.length_take_le _ _

/-- Bytes read in full were next to come, in the asked number. -/
theorem Reader.readFull_pending {size : ℕ} {r : Reader} {got : List UInt8}
    (h : (r.readFull size want).1 = some got) :
    r.pending = got ++ (r.readFull size want).2.pending ∧ got.length = want := by
  fun_induction Reader.readFull size want r generalizing got with
  | case1 r =>
    rw [← Option.some.inj h]
    exact ⟨rfl, rfl⟩
  | case2 want r hwant first => exact absurd h (by simp)
  | case3 want r hwant first hsome rest =>
    rename_i ih
    obtain ⟨more, hmore, rfl⟩ := Option.map_eq_some_iff.mp h
    obtain ⟨hpending, hlength⟩ := ih hmore
    have hfirst : r.pending = first.1 ++ first.2.pending := r.read_pending size want
    have hle : first.1.length ≤ want := r.read_length_le size want
    refine ⟨?_, ?_⟩
    · rw [hfirst, hpending, List.append_assoc]
    · rw [List.length_append, hlength]
      exact Nat.add_sub_of_le hle

/-! ## What is left to come -/

/-- A stream without its first `n` bytes, cut where it was. -/
def Stream.skip (n : ℕ) : Stream → Stream
  | [] => []
  | segment :: source =>
    if h : segment.bytes.drop n = [] then Stream.skip (n - segment.bytes.length) source
    else ⟨segment.bytes.drop n, h⟩ :: source

theorem lt_length_of_drop {bytes : List UInt8} (h : bytes.drop n ≠ []) : n < bytes.length := by
  rw [ne_eq, List.drop_eq_nil_iff] at h
  omega

theorem Stream.content_skip (n : ℕ) (source : Stream) :
    content (source.skip n) = (content source).drop n := by
  induction source generalizing n with
  | nil => rw [Stream.skip, content_nil, List.drop_nil]
  | cons segment source ih =>
    rw [Stream.skip, content_cons, List.drop_append]
    split_ifs with h
    · rw [ih, h, List.nil_append]
    · have hlt := lt_length_of_drop h
      rw [content_cons, Nat.sub_eq_zero_of_le (Nat.le_of_lt hlt), List.drop_zero]

@[simp]
theorem Stream.skip_zero (source : Stream) : source.skip 0 = source := by
  cases source with
  | nil => rfl
  | cons segment source =>
    rw [Stream.skip, dif_neg (by rw [List.drop_zero]; exact segment.nonempty)]
    simp only [List.drop_zero]

theorem Stream.skip_skip (m n : ℕ) (source : Stream) :
    (source.skip m).skip n = source.skip (m + n) := by
  induction source generalizing m n with
  | nil => rfl
  | cons segment source ih =>
    rw [Stream.skip, Stream.skip]
    split_ifs with hm hmn hmn
    · rw [ih, Nat.sub_add_comm]
      exact List.drop_eq_nil_iff.mp hm
    · refine absurd (List.drop_eq_nil_iff.mpr ?_) hmn
      have := List.drop_eq_nil_iff.mp hm
      omega
    · have hlt := lt_length_of_drop hm
      have hrest : n - (segment.bytes.length - m) = m + n - segment.bytes.length := by omega
      rw [Stream.skip, dif_pos (by rwa [List.drop_drop]), List.length_drop, hrest]
    · rw [Stream.skip, dif_neg (by rwa [List.drop_drop])]
      simp only [List.drop_drop]

/-- What a read leaves is the stream without what it took. -/
theorem Stream.read_skip (room : ℕ) (source : Stream) :
    (source.read room).2 = source.skip (source.read room).1.length := by
  cases source with
  | nil => rfl
  | cons segment source =>
    by_cases h : segment.bytes.drop room = []
    · have hall : segment.bytes.drop segment.bytes.length = [] := List.drop_length
      simp only [Stream.read, dif_pos h, Stream.skip, dif_pos hall, Nat.sub_self,
        Stream.skip_zero]
    · have hlt := lt_length_of_drop h
      have htake : (segment.bytes.take room).length = room := List.length_take_of_le (Nat.le_of_lt hlt)
      simp only [Stream.read, dif_neg h, Stream.skip, htake]

/-- One reader's stream is what the other left of it. -/
def LeftOf (r r' : Reader) : Prop := ∃ n, r'.source = r.source.skip n

theorem LeftOf.refl : LeftOf r r := ⟨0, (Stream.skip_zero _).symm⟩

theorem LeftOf.trans {r r' r'' : Reader} (h : LeftOf r r') (h' : LeftOf r' r'') : LeftOf r r'' := by
  obtain ⟨m, hm⟩ := h
  obtain ⟨n, hn⟩ := h'
  exact ⟨m + n, by rw [hn, hm, Stream.skip_skip]⟩

theorem Reader.leftOf_fillUntil (r : Reader) : LeftOf r (r.fillUntil size wanted) := by
  fun_induction Reader.fillUntil size wanted r with
  | case1 r h => exact LeftOf.refl r
  | case2 r h ih => exact LeftOf.trans ⟨_, Stream.read_skip _ _⟩ ih

theorem Reader.leftOf_peek (n : ℕ) (r : Reader) : LeftOf r (r.peek size n).2 := by
  rw [Reader.peek]
  split_ifs <;> exact Reader.leftOf_fillUntil _ _ _

theorem Reader.leftOf_discard (n : ℕ) (r : Reader) : LeftOf r (r.discard n) :=
  ⟨0, (Stream.skip_zero _).symm⟩

theorem Reader.leftOf_readString (delim : UInt8) (r : Reader) :
    LeftOf r (r.readString size delim).2 := by
  fun_induction Reader.readString size delim r with
  | case1 r filled hfound => exact r.leftOf_fillUntil _ _
  | case2 r filled hfound hfull rest =>
    rename_i ih
    exact LeftOf.trans (r.leftOf_fillUntil _ _) ih
  | case3 r filled hfound => exact r.leftOf_fillUntil _ _

theorem Reader.leftOf_read (want : ℕ) (r : Reader) : LeftOf r (r.read size want).2 := by
  rw [Reader.read]
  split_ifs
  · exact LeftOf.refl r
  · exact ⟨_, Stream.read_skip _ _⟩
  · exact ⟨_, Stream.read_skip _ _⟩

theorem Reader.leftOf_readFull (want : ℕ) (r : Reader) : LeftOf r (r.readFull size want).2 := by
  fun_induction Reader.readFull size want r with
  | case1 r => exact LeftOf.refl r
  | case2 want r hwant first => exact r.leftOf_read _ _
  | case3 want r hwant first hsome rest =>
    rename_i ih
    exact LeftOf.trans (r.leftOf_read _ _) ih

/-! ## Reading a front part -/

/-- The same reader with more to come behind. -/
def Reader.withTail (r : Reader) (tail : Stream) : Reader := { r with source := r.source ++ tail }

@[simp]
theorem Reader.withTail_nil : r.withTail [] = r := by
  rw [Reader.withTail, List.append_nil]

theorem Reader.discard_withTail (n : ℕ) (r : Reader) (tail : Stream) :
    (r.withTail tail).discard n = (r.discard n).withTail tail := rfl

variable {r}

theorem Reader.fill_withTail {size : ℕ} (h : r.source ≠ []) (tail : Stream) :
    (r.withTail tail).fill size = (r.fill size).withTail tail := by
  simp only [Reader.fill, Reader.withTail, Stream.read_front h]

/-- Filling that ends within the front does not see what is behind it. -/
theorem Reader.fillUntil_withTail (tail : Stream)
    (h : wanted (r.fillUntil size wanted).buffered ∨
      capacity size ≤ (r.fillUntil size wanted).buffered.length) :
    (r.withTail tail).fillUntil size wanted = (r.fillUntil size wanted).withTail tail := by
  fun_induction Reader.fillUntil size wanted r with
  | case1 r hstop =>
    rw [Reader.fillUntil, if_pos]
    rcases h with h | h
    · exact Or.inl h
    · exact Or.inr (Or.inl h)
  | case2 r hgo ih =>
    simp only [not_or, List.isEmpty_iff] at hgo
    rw [Reader.fillUntil, if_neg, Reader.fill_withTail hgo.2.2, ih h]
    simp only [not_or, Reader.withTail, List.isEmpty_iff, List.append_eq_nil_iff, not_and]
    exact ⟨hgo.1, hgo.2.1, fun hnil => absurd hnil hgo.2.2⟩

/-- Filling that takes the whole front goes on behind it. -/
theorem Reader.fillUntil_past (tail : Stream)
    (h : ¬ wanted (r.fillUntil size wanted).buffered ∧
      (r.fillUntil size wanted).buffered.length < capacity size) :
    (r.withTail tail).fillUntil size wanted = Reader.fillUntil size wanted ⟨r.pending, tail⟩ := by
  fun_induction Reader.fillUntil size wanted r with
  | case1 r hstop =>
    have hnil : r.source = [] := by
      rcases hstop with hstop | hstop | hstop
      · exact absurd hstop h.1
      · omega
      · exact List.isEmpty_iff.mp hstop
    rw [Reader.withTail, Reader.pending, hnil, content_nil, List.append_nil, List.nil_append]
  | case2 r hgo ih =>
    simp only [not_or, List.isEmpty_iff] at hgo
    rw [Reader.fillUntil, if_neg, Reader.fill_withTail hgo.2.2, ih h, Reader.fill_pending]
    simp only [not_or, Reader.withTail, List.isEmpty_iff, List.append_eq_nil_iff, not_and]
    exact ⟨hgo.1, hgo.2.1, fun hnil => absurd hnil hgo.2.2⟩

/-- One read is enough when it brings what is wanted. -/
theorem Reader.fillUntil_once (hbefore : ¬ wanted r.buffered)
    (hroom : r.buffered.length < capacity size) (hsource : r.source ≠ [])
    (hafter : wanted (r.fill size).buffered) : r.fillUntil size wanted = r.fill size := by
  rw [Reader.fillUntil, if_neg, Reader.fillUntil, if_pos (Or.inl hafter)]
  simp only [not_or, List.isEmpty_iff]
  exact ⟨hbefore, Nat.not_le.mpr hroom, hsource⟩

@[simp]
theorem Reader.readFull_zero (r : Reader) : r.readFull size 0 = (some [], r) := by
  rw [Reader.readFull, if_pos rfl]

/-- Bytes in the buffer are read from there. -/
theorem Reader.readFull_buffered {size : ℕ} (h : want ≤ r.buffered.length) :
    r.readFull size want = (some (r.buffered.take want), r.discard want) := by
  by_cases hwant : want = 0
  · rw [hwant, Reader.readFull_zero, List.take_zero, Reader.discard, List.drop_zero]
  · have hread : r.read size want = (r.buffered.take want, r.discard want) :=
      if_pos (List.ne_nil_of_length_pos (by omega))
    have htake : (r.buffered.take want).length = want := List.length_take_of_le h
    have hne : r.buffered.take want ≠ [] := List.ne_nil_of_length_pos (by omega)
    rw [Reader.readFull, if_neg hwant, hread]
    simp only [hne, if_false, htake, Nat.sub_self, Reader.readFull_zero, Option.map_some,
      List.append_nil]

theorem Reader.read_withTail {size : ℕ} (h : r.pending ≠ []) (tail : Stream) :
    (r.withTail tail).read size want =
      ((r.read size want).1, (r.read size want).2.withTail tail) := by
  rw [Reader.read, Reader.read]
  by_cases hbuffered : r.buffered = []
  · have hsource : r.source ≠ [] := by
      intro hnil
      rw [Reader.pending, hbuffered, hnil] at h
      exact h rfl
    simp only [Reader.withTail, Stream.read_front hsource, ne_eq]
    split_ifs <;> rfl
  · simp only [Reader.withTail, Reader.discard, hbuffered, ne_eq, not_false_eq_true, if_true]

/-- A read of something takes something. -/
theorem Reader.read_ne_nil (hwant : want ≠ 0) (h : r.pending ≠ []) : (r.read size want).1 ≠ [] := by
  rw [Reader.read]
  have hpos := capacity_pos size
  by_cases hbuffered : r.buffered = []
  · have hsource : r.source ≠ [] := by
      intro hnil
      rw [Reader.pending, hbuffered, hnil] at h
      exact h rfl
    rw [if_neg (not_not.mpr hbuffered)]
    split_ifs
    · exact Stream.read_ne_nil (by omega) hsource
    · rw [ne_eq, List.take_eq_nil_iff]
      rintro (hzero | hnil)
      · exact hwant hzero
      · exact Stream.read_ne_nil hpos hsource hnil
  · rw [if_pos hbuffered, ne_eq, List.take_eq_nil_iff]
    rintro (hzero | hnil)
    · exact hwant hzero
    · exact hbuffered hnil

/-- A request larger than the front takes all of it and goes on behind it. -/
theorem Reader.readFull_past (tail : Stream) (h : r.pending.length ≤ want) :
    (r.withTail tail).readFull size want =
      ((Reader.readFull size (want - r.pending.length) ⟨[], tail⟩).1.map (r.pending ++ ·),
        (Reader.readFull size (want - r.pending.length) ⟨[], tail⟩).2) := by
  induction want using Nat.strongRecOn generalizing r with
  | _ want ih =>
    by_cases hpending : r.pending = []
    · have hparts := List.append_eq_nil_iff.mp hpending
      have hsource := content_eq_nil.mp hparts.2
      have hid : (fun x : List UInt8 => [] ++ x) = id := rfl
      rw [Reader.withTail, hparts.1, hsource, hpending, List.length_nil, Nat.sub_zero,
        List.nil_append, hid, Option.map_id, id_eq]
    · have hpos := List.length_pos_of_ne_nil hpending
      have hread := r.read_pending size want
      have hne := Reader.read_ne_nil size (show want ≠ 0 by omega) hpending
      have hgot := List.length_pos_of_ne_nil hne
      have hlength := congrArg List.length hread
      rw [List.length_append] at hlength
      rw [Reader.readFull, if_neg (by omega), Reader.read_withTail hpending]
      simp only [hne, if_false]
      rw [ih _ (by omega) (by omega)]
      have hsub : want - (r.read size want).1.length - (r.read size want).2.pending.length =
          want - r.pending.length := by omega
      rw [hsub, Option.map_map]
      congr 2
      funext x
      rw [hread, Function.comp_apply, List.append_assoc]

/-- What a request short of its segment's end takes: the bytes behind it stay on the stream
when the request is at least as large as the buffer, and move to the buffer else. -/
theorem Reader.readFull_segment {want : ℕ} {segment : Segment} (source : Stream)
    (hwant : 0 < want) (hlt : want < segment.bytes.length) :
    (Reader.readFull size want ⟨[], segment :: source⟩).1 = some (segment.bytes.take want) ∧
      ((Reader.readFull size want ⟨[], segment :: source⟩).2.buffered = [] ↔
        capacity size ≤ want) := by
  have htake : (segment.bytes.take want).length = want := List.length_take_of_le (Nat.le_of_lt hlt)
  have hne : segment.bytes.take want ≠ [] := List.ne_nil_of_length_pos (by omega)
  by_cases hlarge : capacity size ≤ want
  · have hdrop : segment.bytes.drop want ≠ [] := by
      rw [ne_eq, List.drop_eq_nil_iff]
      omega
    have hread : Reader.read size want ⟨[], segment :: source⟩ =
        (segment.bytes.take want, ⟨[], ⟨segment.bytes.drop want, hdrop⟩ :: source⟩) := by
      simp only [Reader.read, ne_eq, not_true_eq_false, if_false, hlarge, if_true, Stream.read,
        dif_neg hdrop]
    rw [Reader.readFull, if_neg (by omega), hread]
    simp only [hne, if_false, htake, Nat.sub_self, Reader.readFull_zero, Option.map_some,
      List.append_nil, hlarge, and_self]
  · have hcapacity : want < capacity size := by omega
    have hbuffer : (segment.bytes.take (capacity size)).take want = segment.bytes.take want := by
      rw [List.take_take, Nat.min_eq_left (Nat.le_of_lt hcapacity)]
    have hkept : (segment.bytes.take (capacity size)).drop want ≠ [] := by
      rw [ne_eq, List.drop_eq_nil_iff, List.length_take]
      omega
    have hread : Reader.read size want ⟨[], segment :: source⟩ =
        (segment.bytes.take want, ⟨(segment.bytes.take (capacity size)).drop want,
          (Stream.read (capacity size) (segment :: source)).2⟩) := by
      simp only [Reader.read, ne_eq, not_true_eq_false, if_false, hlarge, Stream.read_head,
        hbuffer]
    rw [Reader.readFull, if_neg (by omega), hread]
    simp only [hne, if_false, htake, Nat.sub_self, Reader.readFull_zero, Option.map_some,
      List.append_nil, hkept, hlarge, and_self]

/-! ## Operations that succeed -/

theorem Reader.fillUntil_stops (r : Reader) :
    wanted (r.fillUntil size wanted).buffered ∨
      capacity size ≤ (r.fillUntil size wanted).buffered.length ∨
      (r.fillUntil size wanted).buffered = r.pending := by
  have hpending := r.fillUntil_pending size wanted
  have hstop : wanted (r.fillUntil size wanted).buffered ∨
      capacity size ≤ (r.fillUntil size wanted).buffered.length ∨
      (r.fillUntil size wanted).source = [] := by
    fun_induction Reader.fillUntil size wanted r with
    | case1 r h => rwa [List.isEmpty_iff] at h
    | case2 r h ih => exact ih (by rw [hpending, Reader.fill_pending])
  rcases hstop with h | h | h
  · exact Or.inl h
  · exact Or.inr (Or.inl h)
  · rw [Reader.pending, h, content_nil, List.append_nil] at hpending
    exact Or.inr (Or.inr hpending)

/-- What a reader has buffered comes first. -/
theorem Reader.buffered_eq_take (r : Reader) : r.buffered = r.pending.take r.buffered.length := by
  rw [Reader.pending, List.take_left]

/-- Filling brings what every full buffer of these bytes has. -/
theorem Reader.fillUntil_wanted (r : Reader)
    (h : ∀ k, capacity size ≤ k → wanted (r.pending.take k)) :
    wanted (r.fillUntil size wanted).buffered := by
  have htake := (r.fillUntil size wanted).buffered_eq_take
  rw [Reader.fillUntil_pending] at htake
  rcases r.fillUntil_stops size wanted with hstop | hstop | hstop
  · exact hstop
  · rw [htake]
    exact h _ hstop
  · have hall := h (max (capacity size) r.pending.length) (Nat.le_max_left _ _)
    rw [List.take_of_length_le (Nat.le_max_right _ _)] at hall
    rwa [hstop]

/-- A look at bytes that come is served, and needs nothing behind them. -/
theorem Reader.peek_withTail (hn : n ≤ r.pending.length) (hcapacity : n ≤ capacity size)
    (tail : Stream) :
    (r.withTail tail).peek size n =
        (some (r.pending.take n), (r.peek size n).2.withTail tail) ∧
      n ≤ (r.peek size n).2.buffered.length := by
  have hwanted := r.fillUntil_wanted size (fun buffered => n ≤ buffered.length) fun k hk => by
    rw [List.length_take, decide_eq_true_eq]
    omega
  have htail := Reader.fillUntil_withTail size (fun buffered => n ≤ buffered.length) tail
    (Or.inl hwanted)
  rw [decide_eq_true_eq] at hwanted
  have htake : (r.fillUntil size fun buffered => n ≤ buffered.length).buffered.take n =
      r.pending.take n := by
    rw [Reader.buffered_eq_take, Reader.fillUntil_pending, List.take_take,
      Nat.min_eq_left hwanted]
  have hpeek : r.peek size n =
      (some (r.pending.take n), r.fillUntil size fun buffered => n ≤ buffered.length) := by
    rw [Reader.peek]
    simp only [hwanted, if_true, htake]
  rw [hpeek, Reader.peek, htail]
  constructor
  · simp only [Reader.withTail, hwanted, if_true, htake]
  · exact hwanted

/-- The line of bytes that hold a delimiter. -/
theorem throughDelim_append (h : delim ∉ before) (after : List UInt8) :
    throughDelim delim (before ++ delim :: after) = before ++ [delim] := by
  have hindex : (before ++ delim :: after).idxOf delim = before.length := by
    rw [List.idxOf_append_of_notMem h, List.idxOf_cons_self, Nat.add_zero]
  have hfirst : before.take (before.length + 1) = before := List.take_of_length_le (by omega)
  have hone : before.length + 1 - before.length = 1 := by omega
  rw [throughDelim, hindex, List.take_append, hfirst, hone]
  rfl

/-- A part that holds the delimiter holds its line. -/
theorem throughDelim_take (h : delim ∉ before) (hn : delim ∈ (before ++ delim :: after).take n) :
    throughDelim delim ((before ++ delim :: after).take n) = before ++ [delim] := by
  have hlt : before.length < n := by
    by_contra hle
    rw [List.take_append_of_le_length (by omega)] at hn
    exact h (List.mem_of_mem_take hn)
  have hfirst : before.take n = before := List.take_of_length_le (by omega)
  obtain ⟨k, rfl⟩ : ∃ k, n = before.length + (k + 1) := ⟨n - before.length - 1, by omega⟩
  rw [List.take_append, hfirst, Nat.add_sub_cancel_left, List.take_succ_cons]
  exact throughDelim_append h _

/-- A line that fits a buffer is read, and needs nothing behind it. -/
theorem Reader.readString_withTail (hpending : r.pending = before ++ delim :: after)
    (hdelim : delim ∉ before) (hcapacity : before.length < capacity size) (tail : Stream) :
    (r.withTail tail).readString size delim =
        (some (before ++ [delim]), (r.readString size delim).2.withTail tail) ∧
      (r.readString size delim).2.pending = after := by
  have hwanted := r.fillUntil_wanted size (fun buffered => buffered.contains delim)
    fun k hk => by
      rw [hpending, List.take_append, List.contains_iff_mem, List.mem_append]
      right
      rw [show k - before.length = k - before.length - 1 + 1 by omega, List.take_succ_cons]
      exact List.mem_cons_self
  have htail := Reader.fillUntil_withTail size (fun buffered => buffered.contains delim) tail
    (Or.inl hwanted)
  have htake := Reader.buffered_eq_take
    (r.fillUntil size fun buffered => buffered.contains delim)
  rw [Reader.fillUntil_pending, hpending] at htake
  have hline : throughDelim delim
      (r.fillUntil size fun buffered => buffered.contains delim).buffered =
        before ++ [delim] := by
    rw [htake]
    refine throughDelim_take hdelim ?_
    rw [← htake]
    exact List.contains_iff_mem.mp hwanted
  have hread : r.readString size delim = (some (before ++ [delim]),
      (r.fillUntil size fun buffered => buffered.contains delim).discard
        (before ++ [delim]).length) := by
    rw [Reader.readString]
    simp only [hwanted, if_true, hline]
  have hsome : (r.readString size delim).1 = some (before ++ [delim]) := by rw [hread]
  constructor
  · rw [hread, Reader.readString, htail]
    simp only [Reader.withTail, hwanted, hline]
    rfl
  · have hafter := Reader.readString_pending hsome
    rw [hpending, List.append_assoc] at hafter
    exact (List.cons.inj (List.append_cancel_left hafter)).2.symm

/-- Bytes that come are read in full. -/
theorem Reader.readFull_spec (h : want ≤ r.pending.length) :
    (r.readFull size want).1 = some (r.pending.take want) := by
  induction want using Nat.strongRecOn generalizing r with
  | _ want ih =>
    by_cases hwant : want = 0
    · rw [hwant, Reader.readFull_zero, List.take_zero]
    · have hpending : r.pending ≠ [] := List.ne_nil_of_length_pos (by omega)
      have hread := r.read_pending size want
      have hne := Reader.read_ne_nil size hwant hpending
      have hgot := List.length_pos_of_ne_nil hne
      have hle := r.read_length_le size want
      have hlength := congrArg List.length hread
      rw [List.length_append] at hlength
      rw [Reader.readFull, if_neg hwant]
      simp only [hne, if_false]
      rw [ih _ (by omega) (by omega), Option.map_some]
      conv_rhs => rw [hread, List.take_append]
      rw [List.take_of_length_le hle]

/-- When a front part does not bring what is wanted and one read of the segment behind it
does, the buffer ends up with both. -/
theorem Reader.fillUntil_segment (segment : Segment) (tail : Stream)
    (hbefore : ∀ k, ¬ wanted (r.pending.take k)) (hroom : r.pending.length < capacity size)
    (hafter : wanted (r.pending ++ segment.bytes.take (capacity size - r.pending.length))) :
    (r.withTail (segment :: tail)).fillUntil size wanted =
      ⟨r.pending ++ segment.bytes.take (capacity size - r.pending.length),
        (Stream.read (capacity size - r.pending.length) (segment :: tail)).2⟩ := by
  have htake := (r.fillUntil size wanted).buffered_eq_take
  rw [Reader.fillUntil_pending] at htake
  have hlength := congrArg List.length htake
  rw [List.length_take] at hlength
  have hnot : ¬ wanted (r.fillUntil size wanted).buffered := by
    rw [htake]
    exact hbefore _
  have hall : ¬ wanted r.pending := by
    have h := hbefore r.pending.length
    rwa [List.take_length] at h
  have hfill : Reader.fill size ⟨r.pending, segment :: tail⟩ =
      ⟨r.pending ++ segment.bytes.take (capacity size - r.pending.length),
        (Stream.read (capacity size - r.pending.length) (segment :: tail)).2⟩ := by
    rw [Reader.fill, Stream.read_head]
  rw [Reader.fillUntil_past size wanted (segment :: tail) ⟨hnot, by omega⟩,
    Reader.fillUntil_once size wanted hall hroom (List.cons_ne_nil _ _) (by rw [hfill]; exact hafter),
    hfill]

/-- A line that the filled buffer holds is handed out. -/
theorem Reader.readString_filled {size : ℕ} (hdelim : delim ∉ before)
    (h : (r.fillUntil size fun buffered => buffered.contains delim) =
      ⟨before ++ delim :: after, source⟩) :
    r.readString size delim = (some (before ++ [delim]), ⟨after, source⟩) := by
  have hcontains : (before ++ delim :: after).contains delim = true := by
    rw [List.contains_iff_mem]
    exact List.mem_append_right _ List.mem_cons_self
  have hsplit : before ++ delim :: after = before ++ [delim] ++ after := by
    rw [List.append_assoc, List.singleton_append]
  have hdrop : (before ++ delim :: after).drop (before ++ [delim]).length = after := by
    rw [hsplit, List.drop_left]
  rw [Reader.readString, h]
  simp only [hcontains, if_true, throughDelim_append hdelim, Reader.discard, hdrop]

/-! ## Segments across a position -/

/-- Where the segment starts that has bytes on both sides of position `n`. -/
def Stream.crossing (n : ℕ) : Stream → Option ℕ
  | [] => none
  | segment :: source =>
    if n < segment.bytes.length then (if n = 0 then none else some 0)
    else (Stream.crossing (n - segment.bytes.length) source).map (segment.bytes.length + ·)

/-- Without such a segment the stream is cut at the position. -/
theorem Stream.of_crossing_none (h : source.crossing n = none) (hn : n ≤ (content source).length) :
    ∃ front tail, source = front ++ tail ∧ (content front).length = n := by
  induction source generalizing n with
  | nil => exact ⟨[], [], rfl, (Nat.le_zero.mp hn).symm⟩
  | cons segment source ih =>
    rw [Stream.crossing] at h
    split_ifs at h with hlt hzero
    · exact ⟨[], segment :: source, rfl, hzero.symm⟩
    · rw [content_cons, List.length_append] at hn
      obtain ⟨front, tail, rfl, hlength⟩ := ih (Option.map_eq_none_iff.mp h) (by omega)
      refine ⟨segment :: front, tail, rfl, ?_⟩
      rw [content_cons, List.length_append]
      omega

/-- With such a segment the stream is cut at its start. -/
theorem Stream.of_crossing_some {start : ℕ} (h : source.crossing n = some start) :
    ∃ front segment tail, source = front ++ segment :: tail ∧
      (content front).length = start ∧ start < n ∧ n < start + segment.bytes.length := by
  induction source generalizing n start with
  | nil => exact absurd h (by simp [Stream.crossing])
  | cons segment source ih =>
    rw [Stream.crossing] at h
    split_ifs at h with hlt hzero
    · have hstart := Option.some.inj h
      refine ⟨[], segment, source, rfl, hstart, ?_, ?_⟩ <;> omega
    · obtain ⟨rest, hrest, rfl⟩ := Option.map_eq_some_iff.mp h
      obtain ⟨front, last, tail, rfl, hlength, hbefore, hafter⟩ := ih hrest
      refine ⟨segment :: front, last, tail, rfl, ?_, ?_, ?_⟩
      · rw [content_cons, List.length_append, hlength]
      · omega
      · omega

/-- A request that ends inside the segment whose first read has filled the buffer leaves the
buffer empty only if it ends where that read ended, or at least a buffer's size later. -/
theorem Reader.readFull_overlap {size want room dropped : ℕ} {before : List UInt8}
    {segment : Segment} (tail : Stream)
    (hdropped : dropped ≤ before.length + min room segment.bytes.length)
    (hwant : dropped + want < before.length + segment.bytes.length) :
    (Reader.readFull size want ⟨(before ++ segment.bytes.take room).drop dropped,
        (Stream.read room (segment :: tail)).2⟩).2.buffered = [] ↔
      before.length + room = dropped + want ∨
        before.length + room + capacity size ≤ dropped + want := by
  have hpos := capacity_pos size
  have hlength : ((before ++ segment.bytes.take room).drop dropped).length =
      before.length + min room segment.bytes.length - dropped := by
    rw [List.length_drop, List.length_append, List.length_take]
  by_cases hle : want ≤ before.length + min room segment.bytes.length - dropped
  · rw [Reader.readFull_buffered (by rw [hlength]; exact hle)]
    simp only [Reader.discard, List.drop_eq_nil_iff]
    omega
  · have hroom : room < segment.bytes.length := by omega
    have hdrop : segment.bytes.drop room ≠ [] := by
      rw [ne_eq, List.drop_eq_nil_iff]
      omega
    have hsource : (Stream.read room (segment :: tail)).2 =
        ⟨segment.bytes.drop room, hdrop⟩ :: tail := by
      rw [Stream.read, dif_neg hdrop]
    have hpending : (Reader.pending ⟨(before ++ segment.bytes.take room).drop dropped, []⟩).length
        = before.length + room - dropped := by
      rw [Reader.pending, content_nil, List.append_nil, hlength]
      omega
    have hshort : (Reader.pending ⟨(before ++ segment.bytes.take room).drop dropped, []⟩).length
        ≤ want := by omega
    have hpast := Reader.readFull_past size (⟨segment.bytes.drop room, hdrop⟩ :: tail) hshort
    rw [Reader.withTail, List.nil_append, hpending] at hpast
    have hinside : want - (before.length + room - dropped) < (segment.bytes.drop room).length := by
      rw [List.length_drop]
      omega
    have hmore : 0 < want - (before.length + room - dropped) := by omega
    have hrest := @Reader.readFull_segment size _ ⟨segment.bytes.drop room, hdrop⟩ tail hmore
      hinside
    rw [hsource, hpast, hrest.2]
    omega

end HybridOs.BufferedReader
