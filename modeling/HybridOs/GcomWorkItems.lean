import HybridOs.Grouping
import Mathlib.Data.Int.Basic
import Mathlib.Data.List.Sort

/-!
# Work items of a Modbus client

The points of a request are sorted by register type, device and offset, and cut into work
items: consecutive registers of one device that are read or written together.
-/

namespace HybridOs.GcomWorkItems

/-- `Register_Types`, in their order. -/
inductive RegisterType where
  | holding
  | input
  | coil
  | discreteInput
  | undefined
  deriving DecidableEq, Repr

/-- The position of a type in the enumeration. -/
def RegisterType.toNat : RegisterType → ℕ
  | .holding => 0
  | .input => 1
  | .coil => 2
  | .discreteInput => 3
  | .undefined => 4

/-- Whether the registers are single bits. -/
def RegisterType.isBit : RegisterType → Bool
  | .coil | .discreteInput => true
  | _ => false

/-- What `check_work_items` reads of a point. -/
structure IoPoint where
  id : String
  component : String
  register_type : RegisterType
  device_id : ℤ
  offset : ℤ
  size : ℕ
  /-- The registers from the end of this point to the next one, where gaps are allowed. -/
  gap : ℕ
  is_enabled : Bool
  is_forced : Bool
  off_by_one : Bool
  deriving DecidableEq, Repr

/-- `IO_Work`, as far as it is filled here. -/
structure IoWork where
  component : String
  register_type : RegisterType
  device_id : ℤ
  off_by_one : Bool
  offset : ℤ
  num_registers : ℤ
  local_ : Bool
  io_points : List IoPoint
  deriving DecidableEq, Repr

/-- The limits of the configuration. -/
structure Limits where
  max_register_group_size : ℕ
  max_bit_size : ℕ

/-- The most registers that a work item of the type may have. -/
def Limits.max (limits : Limits) (register_type : RegisterType) : ℕ :=
  if register_type.isBit then limits.max_bit_size else limits.max_register_group_size

/-- `compareIOPointOffsets`. -/
def compareIOPointOffsets (a b : IoPoint) : Bool :=
  if a.register_type.toNat < b.register_type.toNat then true
  else if b.register_type.toNat < a.register_type.toNat then false
  else if a.device_id < b.device_id then true
  else if b.device_id < a.device_id then false
  else decide (a.offset < b.offset)

/-- `std::sort` with that comparison. Points that compare equal come in any order. -/
structure Sorter where
  sort : List IoPoint → List IoPoint
  perm : ∀ points, (sort points).Perm points
  sorted : ∀ points, (sort points).Pairwise fun a b => compareIOPointOffsets b a = false

/-- The comparison orders the points by type, then by device, then by offset. -/
theorem compareIOPointOffsets_eq_false_iff (a b : IoPoint) :
    compareIOPointOffsets b a = false ↔
      a.register_type.toNat < b.register_type.toNat ∨
      (a.register_type.toNat = b.register_type.toNat ∧
        (a.device_id < b.device_id ∨ (a.device_id = b.device_id ∧ a.offset ≤ b.offset))) := by
  rw [compareIOPointOffsets]
  split_ifs <;> simp <;> omega

/-- The point is not after the other one in that order. -/
abbrev NotAfter (a b : IoPoint) : Prop := compareIOPointOffsets b a = false

instance : Std.Total NotAfter where
  total a b := by
    simp only [NotAfter, compareIOPointOffsets_eq_false_iff]
    omega

instance : IsTrans IoPoint NotAfter where
  trans a b c hab hbc := by
    simp only [NotAfter, compareIOPointOffsets_eq_false_iff] at *
    omega

/-- A sorter that keeps points that compare equal in their order. -/
def Sorter.stable : Sorter where
  sort := List.insertionSort NotAfter
  perm := List.perm_insertionSort NotAfter
  sorted := List.pairwise_insertionSort NotAfter

/-- `make_work`. -/
def make_work (io_point : IoPoint) : IoWork where
  component := io_point.component
  register_type := io_point.register_type
  device_id := io_point.device_id
  off_by_one := io_point.off_by_one
  offset := io_point.offset
  num_registers := 1
  local_ := false
  io_points := []

/-- The variables of the loop. -/
structure Loop where
  first : Bool
  offset : ℤ
  first_offset : ℤ
  device_id : ℤ
  num : ℤ
  isize : ℕ
  gap : ℕ
  local_ : Bool
  register_type : RegisterType
  io_work : IoWork
  io_work_vec : List IoWork

/-- Before the first point. -/
def Loop.start (io_work : IoWork) : Loop where
  first := true
  offset := 0
  first_offset := 0
  device_id := 0
  num := 0
  isize := 0
  gap := 0
  local_ := false
  register_type := .discreteInput
  io_work := io_work
  io_work_vec := []

/-- Whether a new work item begins with the point. -/
def Loop.breaks (st : Loop) (max_item_size : ℕ) (io_point : IoPoint) : Bool :=
  decide (st.offset + st.isize + st.gap ≠ io_point.offset) ||
  decide (io_point.offset + io_point.size - st.first_offset > max_item_size) ||
  decide (io_point.device_id ≠ st.device_id) ||
  decide (io_point.register_type ≠ st.register_type) ||
  (!io_point.is_enabled && io_point.is_forced)

/-- One round of the loop. -/
def Loop.visit (max_item_size : ℕ) (include_all_points : Bool) (st : Loop) (io_point : IoPoint) :
    Loop :=
  if !io_point.is_enabled && !io_point.is_forced && !include_all_points then st
  else if st.first then
    let io_work := {st.io_work with
      register_type := io_point.register_type
      component := io_point.component
      io_points := st.io_work.io_points ++ [io_point]}
    {st with
      first := false
      offset := io_point.offset
      first_offset := io_point.offset
      device_id := io_point.device_id
      num := io_point.size + io_point.gap
      isize := io_point.size
      gap := io_point.gap
      register_type := io_point.register_type
      io_work := io_work}
  else if st.breaks max_item_size io_point then
    if !io_point.is_enabled && io_point.is_forced && !include_all_points then st
    else
      let io_work := {st.io_work with
        offset := st.first_offset
        num_registers := st.num - st.gap}
      {st with
        io_work_vec := st.io_work_vec ++ [io_work]
        offset := io_point.offset
        first_offset := io_point.offset
        device_id := io_point.device_id
        num := io_point.size + io_point.gap
        gap := io_point.gap
        isize := io_point.size
        register_type := io_point.register_type
        local_ := !io_point.is_enabled
        io_work := {make_work io_point with io_points := [io_point]}}
  else
    {st with
      offset := st.offset + (st.isize + st.gap)
      isize := io_point.size
      gap := io_point.gap
      num := st.num + (io_point.size + io_point.gap)
      io_work := {st.io_work with io_points := st.io_work.io_points ++ [io_point]}}

/-- The last work item. -/
def Loop.finish (st : Loop) : List IoWork :=
  let io_work := {st.io_work with
    offset := st.first_offset
    num_registers := st.num - st.gap
    local_ := st.local_}
  st.io_work_vec ++ [io_work]

/-- The work items that are added for the points. -/
def check_work_items (sorter : Sorter) (limits : Limits) (io_map_vec : List IoPoint)
    (include_all_points : Bool) : List IoWork :=
  match sorter.sort io_map_vec with
  | [] => []
  | io_point :: rest =>
    ((io_point :: rest).foldl
      (Loop.visit (limits.max io_point.register_type) include_all_points)
      (Loop.start (make_work io_point))).finish

/-!
## Work items as groups of points

The work items are the groups of the points that are taken, in their sorted order. They are
what they should be exactly where the first point is one to take, and of the device of the
first sorted point; where no group is too long for its own type; and where disabled points
are in the last group only, alone, and not in the first.
-/

open Grouping

/-- Whether the point is to be in a work item. -/
def included (include_all_points : Bool) (io_point : IoPoint) : Bool :=
  include_all_points || io_point.is_enabled

/-- Whether the loop looks at the point. -/
def reached (include_all_points : Bool) (io_point : IoPoint) : Bool :=
  io_point.is_enabled || io_point.is_forced || include_all_points

/-- Whether the point cannot go into the group. -/
def apart (max_item_size : ℕ) (first last next : IoPoint) : Bool :=
  decide (last.offset + last.size + last.gap ≠ next.offset) ||
  decide (next.offset + next.size - first.offset > max_item_size) ||
  decide (next.device_id ≠ first.device_id) ||
  decide (next.register_type ≠ first.register_type) ||
  (!next.is_enabled && next.is_forced)

/-- The work item of a group. -/
def item (device_id : ℤ) (off_by_one local_ : Bool) (first : IoPoint) (group : List IoPoint)
    (last : IoPoint) : IoWork where
  component := first.component
  register_type := first.register_type
  device_id := device_id
  off_by_one := off_by_one
  offset := first.offset
  num_registers := last.offset + last.size - first.offset
  local_ := local_
  io_points := group

/-- The work items where a group is under way. -/
def worksFrom (max_item_size : ℕ) (device_id : ℤ) (off_by_one local_ : Bool) (first : IoPoint)
    (group : List IoPoint) (last : IoPoint) : List IoPoint → List IoWork
  | [] => [item device_id off_by_one local_ first group last]
  | next :: rest =>
    if apart max_item_size first last next then
      item device_id off_by_one false first group last ::
        worksFrom max_item_size next.device_id next.off_by_one (!next.is_enabled) next [next] next
          rest
    else worksFrom max_item_size device_id off_by_one local_ first (group ++ [next]) next rest

/-! ## The loop -/

/-- The loop has a group under way. -/
structure Loop.UnderWay (st : Loop) (device_id : ℤ) (off_by_one : Bool) (first : IoPoint)
    (group : List IoPoint) (last : IoPoint) : Prop where
  begun : st.first = false
  offset : st.offset = last.offset
  first_offset : st.first_offset = first.offset
  device : st.device_id = first.device_id
  num : st.num = last.offset + last.size + last.gap - first.offset
  isize : st.isize = last.size
  gap : st.gap = last.gap
  register_type : st.register_type = first.register_type
  work : st.io_work.component = first.component ∧ st.io_work.register_type = first.register_type ∧
    st.io_work.device_id = device_id ∧ st.io_work.off_by_one = off_by_one ∧
    st.io_work.local_ = false ∧ st.io_work.io_points = group

section Loop
variable {max_item_size : ℕ} {include_all_points : Bool} {st : Loop} {device_id : ℤ}
  {off_by_one : Bool} {first last : IoPoint} {group : List IoPoint}

section

variable (h : st.UnderWay device_id off_by_one first group last)
include h

theorem Loop.UnderWay.breaks_eq (next : IoPoint) :
    st.breaks max_item_size next = apart max_item_size first last next := by
  rw [Loop.breaks, apart, h.offset, h.isize, h.gap, h.first_offset, h.device, h.register_type]

/-- The work item that is complete. -/
theorem Loop.UnderWay.item_eq :
    {st.io_work with
      offset := st.first_offset
      num_registers := st.num - st.gap} = item device_id off_by_one false first group last := by
  obtain ⟨hcomponent, htype, hdevice, hoff, hlocal, hpoints⟩ := h.work
  have hnum : st.num - st.gap = last.offset + last.size - first.offset := by
    rw [h.num, h.gap]
    omega
  simp only [item, h.first_offset, hnum, hcomponent, htype, hdevice, hoff, hlocal, hpoints]

theorem Loop.UnderWay.finish_eq :
    st.finish = st.io_work_vec ++ [item device_id off_by_one st.local_ first group last] := by
  have hitem := congrArg (fun work : IoWork => {work with local_ := st.local_}) h.item_eq
  rw [Loop.finish]
  exact congrArg (fun work => st.io_work_vec ++ [work]) hitem

/-- The loop leaves a point that is not to be taken. -/
theorem Loop.UnderWay.visit_left {next : IoPoint}
    (hnot : included include_all_points next = false) :
    st.visit max_item_size include_all_points next = st := by
  simp only [included, Bool.or_eq_false_iff] at hnot
  obtain ⟨hall, henabled⟩ := hnot
  by_cases hforced : next.is_forced
  · have hbreaks : st.breaks max_item_size next = true := by
      simp [Loop.breaks, henabled, hforced]
    simp [Loop.visit, h.begun, hbreaks, hall, henabled, hforced]
  · simp [Loop.visit, hall, henabled, hforced]

/-- The loop begins a new group with a point that is to be taken. -/
theorem Loop.UnderWay.visit_apart {next : IoPoint} (hin : included include_all_points next = true)
    (hapart : apart max_item_size first last next = true) :
    (st.visit max_item_size include_all_points next).UnderWay next.device_id next.off_by_one next
        [next] next ∧
      (st.visit max_item_size include_all_points next).local_ = !next.is_enabled ∧
      (st.visit max_item_size include_all_points next).io_work_vec =
        st.io_work_vec ++ [item device_id off_by_one false first group last] := by
  have hbreaks := (h.breaks_eq next).trans hapart
  have hreached : (!next.is_enabled && !next.is_forced && !include_all_points) = false := by
    rw [included] at hin
    cases include_all_points <;> simp_all
  have htaken : (!next.is_enabled && next.is_forced && !include_all_points) = false := by
    rw [included] at hin
    cases include_all_points <;> simp_all
  have hvisit : st.visit max_item_size include_all_points next =
      {st with
        io_work_vec := st.io_work_vec ++ [item device_id off_by_one false first group last]
        offset := next.offset
        first_offset := next.offset
        device_id := next.device_id
        num := next.size + next.gap
        gap := next.gap
        isize := next.size
        register_type := next.register_type
        local_ := !next.is_enabled
        io_work := {make_work next with io_points := [next]}} := by
    rw [Loop.visit, hreached, h.begun, hbreaks, htaken, ← h.item_eq]
    rfl
  rw [hvisit]
  refine ⟨⟨h.begun, rfl, rfl, rfl, ?_, rfl, rfl, rfl, rfl, rfl, rfl, rfl, rfl, rfl⟩, rfl, rfl⟩
  change (next.size + next.gap : ℤ) = next.offset + next.size + next.gap - next.offset
  omega

/-- The loop takes a point into the group. -/
theorem Loop.UnderWay.visit_joins {next : IoPoint} (hin : included include_all_points next = true)
    (hjoins : apart max_item_size first last next = false) :
    (st.visit max_item_size include_all_points next).UnderWay device_id off_by_one first
        (group ++ [next]) next ∧
      (st.visit max_item_size include_all_points next).local_ = st.local_ ∧
      (st.visit max_item_size include_all_points next).io_work_vec = st.io_work_vec := by
  have hbreaks := (h.breaks_eq next).trans hjoins
  have hreached : (!next.is_enabled && !next.is_forced && !include_all_points) = false := by
    rw [included] at hin
    cases include_all_points <;> simp_all
  have hvisit : st.visit max_item_size include_all_points next =
      {st with
        offset := st.offset + (st.isize + st.gap)
        isize := next.size
        gap := next.gap
        num := st.num + (next.size + next.gap)
        io_work := {st.io_work with io_points := st.io_work.io_points ++ [next]}} := by
    rw [Loop.visit, hreached, h.begun, hbreaks]
    rfl
  have hnext : last.offset + last.size + last.gap = next.offset := by
    simp only [apart, Bool.or_eq_false_iff, decide_eq_false_iff_not, not_not] at hjoins
    exact hjoins.1.1.1.1
  obtain ⟨hcomponent, htype, hdevice, hoff, hlocal, hpoints⟩ := h.work
  rw [hvisit]
  refine ⟨⟨h.begun, ?_, h.first_offset, h.device, ?_, rfl, rfl, h.register_type, hcomponent, htype,
    hdevice, hoff, hlocal, ?_⟩, rfl, rfl⟩
  · change st.offset + (st.isize + st.gap) = next.offset
    rw [h.offset, h.isize, h.gap]
    omega
  · change st.num + (next.size + next.gap) = next.offset + next.size + next.gap - first.offset
    rw [h.num]
    omega
  · change st.io_work.io_points ++ [next] = group ++ [next]
    rw [hpoints]

/-- The rest of the loop gives the work items of the points to be taken. -/
theorem Loop.UnderWay.finish_foldl (rest : List IoPoint) :
    (rest.foldl (Loop.visit max_item_size include_all_points) st).finish =
      st.io_work_vec ++ worksFrom max_item_size device_id off_by_one st.local_ first group last
        (rest.filter (included include_all_points)) := by
  induction rest generalizing st device_id off_by_one first group last with
  | nil => exact h.finish_eq
  | cons next rest ih =>
    rw [List.foldl_cons, List.filter_cons]
    by_cases hin : included include_all_points next = true
    · rw [if_pos hin, worksFrom]
      by_cases hapart : apart max_item_size first last next = true
      · obtain ⟨hnext, hlocal, hvec⟩ := h.visit_apart hin hapart
        rw [if_pos hapart, ih hnext, hlocal, hvec, List.append_assoc, List.singleton_append]
      · rw [Bool.not_eq_true] at hapart
        obtain ⟨hnext, hlocal, hvec⟩ := h.visit_joins hin hapart
        rw [if_neg (by simp [hapart]), ih hnext, hlocal, hvec]
    · rw [if_neg hin, h.visit_left (by simpa using hin)]
      exact ih h

end

theorem reached_of_included {io_point : IoPoint}
    (h : included include_all_points io_point = true) :
    reached include_all_points io_point = true := by
  rw [included] at h
  rw [reached]
  cases include_all_points <;> simp_all

theorem filter_included_reached (points : List IoPoint) :
    (points.filter (reached include_all_points)).filter (included include_all_points) =
      points.filter (included include_all_points) := by
  rw [List.filter_filter]
  refine List.filter_congr fun io_point _ => ?_
  cases hin : included include_all_points io_point with
  | false => rfl
  | true => simp [reached_of_included hin]

/-- Before a point is reached the loop does nothing, and it begins with the first one. -/
theorem finish_foldl_start {io_work : IoWork} (hfresh : io_work.io_points = [])
    (hremote : io_work.local_ = false) (points : List IoPoint) :
    (points.foldl (Loop.visit max_item_size include_all_points) (Loop.start io_work)).finish =
      match points.filter (reached include_all_points) with
      | [] => [{io_work with
          offset := 0
          num_registers := 0
          local_ := false}]
      | first :: rest => worksFrom max_item_size io_work.device_id io_work.off_by_one false first
          [first] first (rest.filter (included include_all_points)) := by
  induction points with
  | nil => rfl
  | cons next rest ih =>
    rw [List.foldl_cons, List.filter_cons]
    by_cases hreached : reached include_all_points next = true
    · rw [if_pos hreached]
      have hnot : (!next.is_enabled && !next.is_forced && !include_all_points) = false := by
        rw [reached] at hreached
        cases henabled : next.is_enabled <;> cases hforced : next.is_forced <;>
          cases include_all_points <;> simp_all
      have hvisit : (Loop.start io_work).visit max_item_size include_all_points next =
          {Loop.start io_work with
            first := false
            offset := next.offset
            first_offset := next.offset
            device_id := next.device_id
            num := next.size + next.gap
            isize := next.size
            gap := next.gap
            register_type := next.register_type
            io_work := {io_work with
              register_type := next.register_type
              component := next.component
              io_points := io_work.io_points ++ [next]}} := by
        rw [Loop.visit, hnot]
        rfl
      have hunderWay : ((Loop.start io_work).visit max_item_size include_all_points next).UnderWay
          io_work.device_id io_work.off_by_one next [next] next := by
        rw [hvisit, hfresh]
        refine ⟨rfl, rfl, rfl, rfl, ?_, rfl, rfl, rfl, rfl, rfl, rfl, rfl, hremote, rfl⟩
        change (next.size + next.gap : ℤ) = next.offset + next.size + next.gap - next.offset
        omega
      rw [hunderWay.finish_foldl, hvisit, ← filter_included_reached rest]
      rfl
    · have hvisit : (Loop.start io_work).visit max_item_size include_all_points next =
          Loop.start io_work := by
        rw [Bool.not_eq_true, reached, Bool.or_eq_false_iff, Bool.or_eq_false_iff] at hreached
        simp [Loop.visit, hreached.1.1, hreached.1.2, hreached.2]
      rw [hvisit, if_neg hreached]
      exact ih

end Loop

/-! ## What work items should be -/

/-- The points are spread over work items that hold them. -/
structure Partitions (limits : Limits) (include_all_points : Bool) (points : List IoPoint)
    (works : List IoWork) : Prop where
  /-- Each point to be included is in exactly one item, and no other point is. -/
  points : (works.flatMap IoWork.io_points).Perm (points.filter (included include_all_points))
  device : ∀ work ∈ works, ∀ io_point ∈ work.io_points, io_point.device_id = work.device_id ∧
    io_point.register_type = work.register_type
  registers : ∀ work ∈ works, ∀ io_point ∈ work.io_points, work.offset ≤ io_point.offset ∧
    io_point.offset + io_point.size ≤ work.offset + work.num_registers
  limit : ∀ work ∈ works, work.num_registers ≤ limits.max work.register_type
  local_ : ∀ work ∈ works, ∀ io_point ∈ work.io_points, work.local_ = !io_point.is_enabled

/-- The points that the loop takes. -/
def taken (include_all_points : Bool) (sorted : List IoPoint) : List IoPoint :=
  match sorted.filter (reached include_all_points) with
  | [] => []
  | first :: rest => first :: rest.filter (included include_all_points)

/-- The registers from the first point of a group to its last one. -/
def extent (group : List IoPoint) : ℤ :=
  match group.head?, group.getLast? with
  | some first, some last => last.offset + last.size - first.offset
  | _, _ => 0

/-- When the work items of sorted points are what they should be. -/
structure WellGrouped (limits : Limits) (include_all_points : Bool) (sorted : List IoPoint) :
    Prop where
  /-- The first point that is reached is to be included. -/
  included : ∀ first ∈ (sorted.filter (reached include_all_points)).head?,
    included include_all_points first = true
  /-- It is of the device of the first sorted point. -/
  device : ∀ first ∈ (sorted.filter (reached include_all_points)).head?,
    ∀ io_point ∈ sorted.head?, first.device_id = io_point.device_id
  /-- No group is too long for its own type, where the type of the first sorted point allows
  longer ones. -/
  limit : ∀ io_point ∈ sorted.head?,
    ∀ group ∈ groups (apart (limits.max io_point.register_type)) (taken include_all_points sorted),
      ∀ first ∈ group.head?,
        limits.max first.register_type < limits.max io_point.register_type →
          extent group ≤ limits.max first.register_type
  /-- Disabled points are in the last group only, which has no others and is not the first. -/
  local_ : ∀ io_point ∈ sorted.head?, ∀ before group,
    groups (apart (limits.max io_point.register_type)) (taken include_all_points sorted) =
        before ++ [group] →
      (∀ other ∈ before.flatten, other.is_enabled = true) ∧
      ((∀ other ∈ group, other.is_enabled = true) ∨
        (before ≠ [] ∧ ∀ other ∈ group, other.is_enabled = false))

/-! ## One group -/

/-- The points of a group, from the first to the last. -/
structure InGroup (max_item_size : ℕ) (first : IoPoint) (group : List IoPoint)
    (last : IoPoint) : Prop where
  head_eq : group.head? = some first
  last_eq : group.getLast? = some last
  device : ∀ io_point ∈ group, io_point.device_id = first.device_id ∧
    io_point.register_type = first.register_type
  registers : ∀ io_point ∈ group, first.offset ≤ io_point.offset ∧
    io_point.offset + io_point.size ≤ last.offset + last.size
  limit : group = [first] ∨ last.offset + last.size - first.offset ≤ max_item_size

section Groups
variable {max_item_size : ℕ} {first last : IoPoint} {group : List IoPoint}

theorem inGroup_single (io_point : IoPoint) :
    InGroup max_item_size io_point [io_point] io_point where
  head_eq := rfl
  last_eq := rfl
  device := by simp
  registers := by simp
  limit := .inl rfl

theorem InGroup.joins (h : InGroup max_item_size first group last) {next : IoPoint}
    (hjoins : apart max_item_size first last next = false) :
    InGroup max_item_size first (group ++ [next]) next := by
  simp only [apart, Bool.or_eq_false_iff, decide_eq_false_iff_not, not_not] at hjoins
  obtain ⟨⟨⟨⟨hnext, hlimit⟩, hdevice⟩, htype⟩, _⟩ := hjoins
  have hne : group ≠ [] := by
    rintro rfl
    cases h.head_eq
  have hlast := h.registers last (List.mem_of_getLast? h.last_eq)
  refine ⟨?_, by simp, ?_, ?_, .inr (by omega)⟩
  · rw [List.head?_append_of_ne_nil _ hne, h.head_eq]
  · intro io_point hmem
    rcases List.mem_append.1 hmem with hmem | hmem
    · exact h.device io_point hmem
    · obtain rfl := List.mem_singleton.1 hmem
      exact ⟨hdevice, htype⟩
  · intro io_point hmem
    rcases List.mem_append.1 hmem with hmem | hmem
    · have hregisters := h.registers io_point hmem
      omega
    · obtain rfl := List.mem_singleton.1 hmem
      omega

theorem InGroup.extent_eq (h : InGroup max_item_size first group last) :
    extent group = last.offset + last.size - first.offset := by
  rw [extent, h.head_eq, h.last_eq]

/-- What a work item says about its group. -/
structure Describes (max_item_size : ℕ) (work : IoWork) : Prop where
  group : ∃ first last, InGroup max_item_size first work.io_points last ∧
    work.register_type = first.register_type ∧ work.offset = first.offset ∧
    work.num_registers = last.offset + last.size - first.offset

variable {device_id : ℤ} {off_by_one local_ : Bool}

theorem InGroup.describes (h : InGroup max_item_size first group last) :
    Describes max_item_size (item device_id off_by_one local_ first group last) :=
  ⟨first, last, h, rfl, rfl, rfl⟩

theorem InGroup.worksFrom_describe (h : InGroup max_item_size first group last)
    (rest : List IoPoint) :
    ∀ work ∈ worksFrom max_item_size device_id off_by_one local_ first group last rest,
      Describes max_item_size work := by
  induction rest generalizing device_id off_by_one local_ first group last with
  | nil =>
    intro work hmem
    obtain rfl := List.mem_singleton.1 hmem
    exact h.describes
  | cons next rest ih =>
    intro work hmem
    rw [worksFrom] at hmem
    split_ifs at hmem with hapart
    · rcases List.mem_cons.1 hmem with rfl | hmem
      · exact h.describes
      · exact ih (inGroup_single next) work hmem
    · rw [Bool.not_eq_true] at hapart
      exact ih (h.joins hapart) work hmem

/-- The work items are those of the groups. -/
theorem worksFrom_groups (rest : List IoPoint) :
    (worksFrom max_item_size device_id off_by_one local_ first group last rest).map
        IoWork.io_points =
      groupsFrom (apart max_item_size) first group last rest := by
  induction rest generalizing device_id off_by_one local_ first group last with
  | nil => rfl
  | cons next rest ih =>
    rw [worksFrom, groupsFrom]
    split_ifs
    · rw [List.map_cons, ih]
      rfl
    · exact ih

/-- A work item has the device and the type of its points. -/
def OfOneDevice (work : IoWork) : Prop :=
  ∀ io_point ∈ work.io_points, io_point.device_id = work.device_id ∧
    io_point.register_type = work.register_type

theorem InGroup.ofOneDevice_iff (h : InGroup max_item_size first group last) (local_ : Bool) :
    OfOneDevice (item device_id off_by_one local_ first group last) ↔
      first.device_id = device_id := by
  constructor
  · intro hall
    exact (hall first (List.mem_of_head? h.head_eq)).1
  · intro hdevice io_point hmem
    have hpoint := h.device io_point hmem
    exact ⟨hpoint.1.trans hdevice, hpoint.2⟩

/-- Only the first work item may say another device than that of its points. -/
theorem InGroup.worksFrom_device (h : InGroup max_item_size first group last)
    (rest : List IoPoint) :
    (∀ work ∈ worksFrom max_item_size device_id off_by_one local_ first group last rest,
      OfOneDevice work) ↔ first.device_id = device_id := by
  induction rest generalizing device_id off_by_one local_ first group last with
  | nil =>
    rw [worksFrom, List.forall_mem_singleton]
    exact h.ofOneDevice_iff local_
  | cons next rest ih =>
    rw [worksFrom]
    split_ifs with hapart
    · rw [List.forall_mem_cons, h.ofOneDevice_iff, ih (inGroup_single next)]
      simp
    · rw [Bool.not_eq_true] at hapart
      exact ih (h.joins hapart)

/-! ## Local work items -/

/-- A work item is local exactly if its points are disabled. -/
def LocalFits (work : IoWork) : Prop :=
  ∀ io_point ∈ work.io_points, work.local_ = !io_point.is_enabled

/-- All points are enabled, or all are disabled. -/
def AllAlike (group : List IoPoint) : Prop :=
  (∀ io_point ∈ group, io_point.is_enabled = true) ∨
    ∀ io_point ∈ group, io_point.is_enabled = false

/-- Where the first point of a group says whether it is local. -/
theorem fits_first_iff (h : InGroup max_item_size first group last) :
    (∀ io_point ∈ group, (!first.is_enabled) = !io_point.is_enabled) ↔ AllAlike group := by
  have hfirst : first ∈ group := List.mem_of_head? h.head_eq
  constructor
  · intro hall
    cases henabled : first.is_enabled with
    | true =>
      refine .inl fun io_point hmem => ?_
      have hpoint := hall io_point hmem
      rw [henabled] at hpoint
      simpa using hpoint.symm
    | false =>
      refine .inr fun io_point hmem => ?_
      have hpoint := hall io_point hmem
      rw [henabled] at hpoint
      simpa using hpoint.symm
  · intro halike io_point hmem
    rcases halike with halike | halike
    · rw [halike first hfirst, halike io_point hmem]
    · rw [halike first hfirst, halike io_point hmem]

/-- The groups before the last one are enabled, and the last one is alike, or fits what is
said of it where it is the one under way. -/
def LocalsFit (local_ : Bool) (complete : List (List IoPoint)) : Prop :=
  ∀ before group, complete = before ++ [group] →
    (∀ other ∈ before.flatten, other.is_enabled = true) ∧
    ((before = [] → ∀ other ∈ group, local_ = !other.is_enabled) ∧
      (before ≠ [] → AllAlike group))

theorem localsFit_single (group : List IoPoint) :
    LocalsFit local_ [group] ↔ ∀ other ∈ group, local_ = !other.is_enabled := by
  constructor
  · intro h
    exact (h [] group rfl).2.1 rfl
  · intro h before last heq
    cases before with
    | nil =>
      cases heq
      exact ⟨by simp, fun _ => h, by simp⟩
    | cons first rest =>
      have hlength := congrArg List.length heq
      simp at hlength

theorem localsFit_cons (group : List IoPoint) {later : List (List IoPoint)} (hlater : later ≠ []) :
    LocalsFit local_ (group :: later) ↔
      (∀ other ∈ group, other.is_enabled = true) ∧
        ∀ before last, later = before ++ [last] →
          (∀ other ∈ before.flatten, other.is_enabled = true) ∧ AllAlike last := by
  constructor
  · intro h
    have hsplit := List.dropLast_append_getLast hlater
    have hfirst := h (group :: later.dropLast) (later.getLast hlater) (by simp [hsplit])
    refine ⟨fun other hother => hfirst.1 other (by simp [hother]), fun before last heq => ?_⟩
    have hwhole := h (group :: before) last (by rw [heq]; rfl)
    exact ⟨fun other hother => hwhole.1 other (List.mem_append_right _ hother),
      hwhole.2.2 (by simp)⟩
  · rintro ⟨hgroup, hrest⟩ before last heq
    cases before with
    | nil =>
      cases heq
      exact absurd rfl hlater
    | cons first before =>
      cases heq
      have hlast := hrest before last rfl
      refine ⟨fun other hother => ?_, by simp, fun _ => hlast.2⟩
      rcases List.mem_append.1 hother with hother | hother
      · exact hgroup other hother
      · exact hlast.1 other hother

section

variable (h : InGroup max_item_size first group last) (rest : List IoPoint)
include h rest

/-- Every complete group is one. -/
theorem InGroup.groupsFrom_inGroup :
    ∀ complete ∈ groupsFrom (apart max_item_size) first group last rest,
      ∃ first last, InGroup max_item_size first complete last :=
  forall_groupsFrom _ (fun next _ => inGroup_single next)
    (fun _ _ _ _ hgroup _ hjoins => hgroup.joins hjoins) h (fun _ _ => trivial)

/-- For the groups from the first point on, to be alike is to fit it. -/
theorem InGroup.localsFit_iff :
    LocalsFit (!first.is_enabled) (groupsFrom (apart max_item_size) first group last rest) ↔
      ∀ before complete, groupsFrom (apart max_item_size) first group last rest =
          before ++ [complete] →
        (∀ other ∈ before.flatten, other.is_enabled = true) ∧ AllAlike complete := by
  have honly : ∀ complete, groupsFrom (apart max_item_size) first group last rest = [complete] →
      ((∀ io_point ∈ complete, (!first.is_enabled) = !io_point.is_enabled) ↔
        AllAlike complete) := by
    intro complete heq
    have hflatten := flatten_groupsFrom (apart max_item_size) first group last rest
    rw [heq, List.flatten_singleton] at hflatten
    have hne : group ≠ [] := by
      rintro rfl
      cases h.head_eq
    have hhead : complete.head? = some first := by
      rw [hflatten, List.head?_append_of_ne_nil _ hne, h.head_eq]
    obtain ⟨first', last', hgroup⟩ := h.groupsFrom_inGroup rest complete (by simp [heq])
    rw [hgroup.head_eq, Option.some.injEq] at hhead
    subst hhead
    exact fits_first_iff hgroup
  constructor
  · intro hfit before complete heq
    obtain ⟨hbefore, hfirst, hlater⟩ := hfit before complete heq
    refine ⟨hbefore, ?_⟩
    by_cases hnil : before = []
    · subst hnil
      exact (honly complete heq).1 (hfirst rfl)
    · exact hlater hnil
  · intro hall before complete heq
    obtain ⟨hbefore, halike⟩ := hall before complete heq
    refine ⟨hbefore, ?_, fun _ => halike⟩
    rintro rfl
    exact (honly complete heq).2 halike

/-- The work items are local as they should be exactly where the groups fit. -/
theorem InGroup.worksFrom_local :
    (∀ work ∈ worksFrom max_item_size device_id off_by_one local_ first group last rest,
      LocalFits work) ↔
    LocalsFit local_ (groupsFrom (apart max_item_size) first group last rest) := by
  induction rest generalizing device_id off_by_one local_ first group last with
  | nil =>
    rw [worksFrom, groupsFrom, List.forall_mem_singleton, localsFit_single]
    exact Iff.rfl
  | cons next rest ih =>
    rw [worksFrom, groupsFrom]
    split_ifs with hapart
    · have hnext := @inGroup_single max_item_size next
      rw [List.forall_mem_cons, ih hnext, hnext.localsFit_iff rest,
        localsFit_cons _ (groupsFrom_ne_nil _ _ _ _ _)]
      refine and_congr_left fun _ => ?_
      refine forall_congr' fun io_point => imp_congr_right fun _ => ?_
      cases io_point.is_enabled <;> simp [item]
    · rw [Bool.not_eq_true] at hapart
      exact ih (h.joins hapart)

end

/-! ## Limits -/

/-- A group is no longer than its type allows. -/
def Short (limits : Limits) (group : List IoPoint) : Prop :=
  ∀ first ∈ group.head?, extent group ≤ limits.max first.register_type

/-- The work items have the registers of their groups. -/
theorem InGroup.worksFrom_limit (h : InGroup max_item_size first group last)
    (limits : Limits) (rest : List IoPoint) :
    (∀ work ∈ worksFrom max_item_size device_id off_by_one local_ first group last rest,
      work.num_registers ≤ limits.max work.register_type) ↔
    ∀ complete ∈ groupsFrom (apart max_item_size) first group last rest,
      Short limits complete := by
  rw [← worksFrom_groups, List.forall_mem_map]
  refine forall_congr' fun work => forall_congr' fun hmem => ?_
  obtain ⟨first', last', hgroup, htype, _, hnum⟩ := (h.worksFrom_describe rest work hmem).group
  rw [Short, hgroup.head_eq, hgroup.extent_eq, htype, hnum]
  simp

/-- A group is only too long where the points are of a type that allows less. -/
theorem InGroup.short_iff (h : InGroup max_item_size first group last) {limits : Limits}
    (hsize : ∀ io_point ∈ group, io_point.size ≤ limits.max io_point.register_type) :
    Short limits group ↔ ∀ first ∈ group.head?,
      limits.max first.register_type < max_item_size →
        extent group ≤ limits.max first.register_type := by
  rw [Short, h.head_eq]
  simp only [Option.mem_some_iff, forall_eq']
  refine ⟨fun hshort _ => hshort, fun hshort => ?_⟩
  by_cases hless : limits.max first.register_type < max_item_size
  · exact hshort hless
  · rw [h.extent_eq]
    rcases h.limit with hsingle | hlimit
    · have hlast := h.last_eq
      rw [hsingle, List.getLast?_singleton, Option.some.injEq] at hlast
      subst hlast
      have hfirst := hsize first (List.mem_of_head? h.head_eq)
      omega
    · omega

end Groups

/-! ## Work items of sorted points -/

section WorkItems
variable {limits : Limits} {include_all_points : Bool} {io_point : IoPoint}
  {rest later points : List IoPoint}

/-- The work items of the points that are taken. -/
theorem finish_eq_worksFrom {first : IoPoint}
    (htaken : taken include_all_points (io_point :: rest) = first :: later) :
    ((io_point :: rest).foldl
      (Loop.visit (limits.max io_point.register_type) include_all_points)
      (Loop.start (make_work io_point))).finish =
      worksFrom (limits.max io_point.register_type) io_point.device_id io_point.off_by_one false
        first [first] first later := by
  rw [finish_foldl_start rfl rfl]
  rw [taken] at htaken
  cases hfilter : (io_point :: rest).filter (reached include_all_points) with
  | nil =>
    rw [hfilter] at htaken
    cases htaken
  | cons first' rest' =>
    rw [hfilter] at htaken
    cases htaken
    rfl

theorem finish_eq_nil (htaken : taken include_all_points (io_point :: rest) = []) :
    ((io_point :: rest).foldl
      (Loop.visit (limits.max io_point.register_type) include_all_points)
      (Loop.start (make_work io_point))).finish =
      [{make_work io_point with
        offset := 0
        num_registers := 0
        local_ := false}] := by
  rw [finish_foldl_start rfl rfl]
  rw [taken] at htaken
  cases hfilter : (io_point :: rest).filter (reached include_all_points) with
  | nil => rfl
  | cons first' rest' =>
    rw [hfilter] at htaken
    cases htaken

/-- The points that are taken are those to be included, and perhaps the first one reached. -/
theorem taken_cases (sorted : List IoPoint) :
    (sorted.filter (reached include_all_points) = [] ∧ taken include_all_points sorted = [] ∧
      sorted.filter (included include_all_points) = []) ∨
    ∃ first later, (sorted.filter (reached include_all_points)).head? = some first ∧
      taken include_all_points sorted = first :: later ∧
      sorted.filter (included include_all_points) =
        if included include_all_points first then first :: later else later := by
  rw [taken, ← filter_included_reached sorted]
  cases hfilter : sorted.filter (reached include_all_points) with
  | nil => exact .inl ⟨rfl, rfl, rfl⟩
  | cons first rest => exact .inr ⟨first, _, rfl, rfl, List.filter_cons⟩

/-- The points that are taken are those to be included exactly if the first one is. -/
theorem taken_perm_iff {sorted : List IoPoint} (hperm : sorted.Perm points) {first : IoPoint}
    (hincluded : sorted.filter (included include_all_points) =
      if included include_all_points first then first :: later else later) :
    (first :: later).Perm (points.filter (included include_all_points)) ↔
      included include_all_points first = true := by
  have hfilter := hperm.filter (included include_all_points)
  constructor
  · intro htaken
    have hmem := htaken.mem_iff.1 (List.mem_cons_self (a := first))
    exact (List.mem_filter.1 hmem).2
  · intro hfirst
    rw [hincluded, if_pos hfirst] at hfilter
    exact hfilter

theorem localsFit_false_iff {complete : List (List IoPoint)} :
    LocalsFit false complete ↔ ∀ before group, complete = before ++ [group] →
      (∀ other ∈ before.flatten, other.is_enabled = true) ∧
      ((∀ other ∈ group, other.is_enabled = true) ∨
        (before ≠ [] ∧ ∀ other ∈ group, other.is_enabled = false)) := by
  refine forall_congr' fun before => forall_congr' fun group => imp_congr_right fun _ =>
    and_congr_right fun _ => ?_
  by_cases hnil : before = []
  · subst hnil
    have heach : (∀ other ∈ group, false = !other.is_enabled) ↔
        ∀ other ∈ group, other.is_enabled = true := by
      refine forall_congr' fun other => imp_congr_right fun _ => ?_
      cases other.is_enabled <;> simp
    simp only [ne_eq, not_true_eq_false, false_and, or_false, false_implies, and_true,
      true_implies]
    exact heach
  · simp only [hnil, false_implies, true_and, ne_eq, not_false_eq_true, true_implies]
    exact Iff.rfl

/-- Without a point to take there is nothing to partition. -/
theorem partitions_of_empty {works : List IoWork}
    (hnone : points.filter (included include_all_points) = [])
    (hempty : ∀ work ∈ works, work.io_points = [] ∧ work.num_registers = 0) :
    Partitions limits include_all_points points works where
  points := by
    have hflat : works.flatMap IoWork.io_points = [] :=
      List.flatMap_eq_nil_iff.2 fun work hwork => (hempty work hwork).1
    rw [hflat, hnone]
  device := by
    intro work hwork io_point hmem
    rw [(hempty work hwork).1] at hmem
    cases hmem
  registers := by
    intro work hwork io_point hmem
    rw [(hempty work hwork).1] at hmem
    cases hmem
  limit := by
    intro work hwork
    rw [(hempty work hwork).2]
    exact Int.natCast_nonneg _
  local_ := by
    intro work hwork io_point hmem
    rw [(hempty work hwork).1] at hmem
    cases hmem

theorem wellGrouped_of_empty {sorted : List IoPoint}
    (hnone : sorted.filter (reached include_all_points) = []) :
    WellGrouped limits include_all_points sorted where
  included := by simp [hnone]
  device := by simp [hnone]
  limit := by simp [taken, hnone, groups]
  local_ := by simp [taken, hnone, groups]

/-- The work items of some points that are taken partition the points exactly if these are
well grouped. -/
theorem worksFrom_partitions_iff {first : IoPoint} (hperm : (io_point :: rest).Perm points)
    (hsize : ∀ io_point ∈ points, io_point.size ≤ limits.max io_point.register_type)
    (hhead : ((io_point :: rest).filter (reached include_all_points)).head? = some first)
    (htaken : taken include_all_points (io_point :: rest) = first :: later)
    (hincluded : (io_point :: rest).filter (included include_all_points) =
      if included include_all_points first then first :: later else later) :
    Partitions limits include_all_points points
        (worksFrom (limits.max io_point.register_type) io_point.device_id io_point.off_by_one false
          first [first] first later) ↔
      WellGrouped limits include_all_points (io_point :: rest) := by
  have hfirst := @inGroup_single (limits.max io_point.register_type) first
  have hflat := flatten_groupsFrom (apart (limits.max io_point.register_type)) first [first]
    first later
  have hpoints : (worksFrom (limits.max io_point.register_type) io_point.device_id
      io_point.off_by_one false first [first] first later).flatMap IoWork.io_points =
        first :: later := by
    rw [List.flatMap_def, worksFrom_groups, hflat, List.singleton_append]
  have hgroups : groups (apart (limits.max io_point.register_type))
      (taken include_all_points (io_point :: rest)) =
        groupsFrom (apart (limits.max io_point.register_type)) first [first] first later := by
    rw [htaken, groups]
  have hsorted : ∀ other ∈ first :: later, other ∈ points := by
    intro other hother
    rcases List.mem_cons.1 hother with rfl | hother
    · exact hperm.mem_iff.1 (List.mem_filter.1 (List.mem_of_head? hhead)).1
    · have hmem : other ∈ (io_point :: rest).filter (included include_all_points) := by
        rw [hincluded]
        split_ifs
        · exact List.mem_cons_of_mem _ hother
        · exact hother
      exact hperm.mem_iff.1 (List.mem_filter.1 hmem).1
  have hshort : (∀ complete ∈ groupsFrom (apart (limits.max io_point.register_type)) first [first]
      first later, Short limits complete) ↔
      ∀ group ∈ groups (apart (limits.max io_point.register_type))
          (taken include_all_points (io_point :: rest)),
        ∀ first ∈ group.head?,
          limits.max first.register_type < limits.max io_point.register_type →
            extent group ≤ limits.max first.register_type := by
    rw [hgroups]
    refine forall_congr' fun group => forall_congr' fun hgroup => ?_
    obtain ⟨first', last', hin⟩ := hfirst.groupsFrom_inGroup later group hgroup
    refine hin.short_iff fun other hother => hsize other (hsorted other ?_)
    have hmem := List.mem_flatten.2 ⟨group, hgroup, hother⟩
    rwa [hflat] at hmem
  constructor
  · intro h
    have hall : included include_all_points first = true := by
      have hperm' := h.points
      rw [hpoints] at hperm'
      exact (taken_perm_iff hperm hincluded).1 hperm'
    exact {
      included := by
        intro other hother
        rw [hhead, Option.mem_some_iff] at hother
        rwa [← hother]
      device := by
        intro other hother io_point' hio_point
        rw [hhead, Option.mem_some_iff] at hother
        rw [List.head?_cons, Option.mem_some_iff] at hio_point
        rw [← hother, ← hio_point]
        exact (hfirst.worksFrom_device later).1 h.device
      limit := by
        intro io_point' hio_point
        rw [List.head?_cons, Option.mem_some_iff] at hio_point
        rw [← hio_point]
        exact hshort.1 ((hfirst.worksFrom_limit limits later).1 h.limit)
      local_ := by
        intro io_point' hio_point
        rw [List.head?_cons, Option.mem_some_iff] at hio_point
        rw [← hio_point, hgroups]
        exact localsFit_false_iff.1 ((hfirst.worksFrom_local later).1 h.local_) }
  · intro h
    have hdevice : first.device_id = io_point.device_id :=
      h.device first (by simp [hhead]) io_point (by simp)
    exact {
      points := by
        rw [hpoints]
        exact (taken_perm_iff hperm hincluded).2 (h.included first (by simp [hhead]))
      device := (hfirst.worksFrom_device later).2 hdevice
      registers := by
        intro work hwork other hother
        obtain ⟨first', last', hin, _, hoffset, hnum⟩ :=
          (hfirst.worksFrom_describe later work hwork).group
        have hregisters := hin.registers other hother
        omega
      limit := (hfirst.worksFrom_limit limits later).2 (hshort.2 (h.limit io_point (by simp)))
      local_ := by
        have hfit := h.local_ io_point (by simp)
        rw [hgroups] at hfit
        exact (hfirst.worksFrom_local later).2 (localsFit_false_iff.2 hfit) }

/-- The work items of sorted points partition them exactly if the points are well grouped. -/
theorem check_work_items_partitions_iff (sorter : Sorter) (limits : Limits)
    (points : List IoPoint) (include_all_points : Bool)
    (hsize : ∀ io_point ∈ points, io_point.size ≤ limits.max io_point.register_type) :
    Partitions limits include_all_points points
        (check_work_items sorter limits points include_all_points) ↔
      WellGrouped limits include_all_points (sorter.sort points) := by
  have hperm := sorter.perm points
  rw [check_work_items]
  cases hsorted : sorter.sort points with
  | nil =>
    rw [hsorted] at hperm
    have hnil : points = [] := (List.Perm.nil_eq hperm).symm
    have hpartitions : Partitions limits include_all_points points [] :=
      partitions_of_empty (by rw [hnil, List.filter_nil]) (by simp)
    exact iff_of_true hpartitions (wellGrouped_of_empty rfl)
  | cons io_point rest =>
    rw [hsorted] at hperm
    rcases taken_cases (io_point :: rest) with ⟨hreached, htaken, hnone⟩ |
      ⟨first, later, hhead, htaken, hincluded⟩
    · have hfilter : points.filter (included include_all_points) = [] := by
        have hfilter := hperm.filter (included include_all_points)
        rw [hnone] at hfilter
        exact (List.Perm.nil_eq hfilter).symm
      simp only [finish_eq_nil htaken]
      refine iff_of_true (partitions_of_empty hfilter ?_) (wellGrouped_of_empty hreached)
      intro work hwork
      obtain rfl := List.mem_singleton.1 hwork
      exact ⟨rfl, rfl⟩
    · simp only [finish_eq_worksFrom htaken]
      exact worksFrom_partitions_iff hperm hsize hhead htaken hincluded

end WorkItems

/-! ## Two points -/

/-- A holding register. -/
def holdingAt (offset : ℤ) (is_enabled is_forced : Bool) : IoPoint where
  id := "setpoint"
  component := "inverter"
  register_type := .holding
  device_id := 1
  offset := offset
  size := 1
  gap := 0
  is_enabled := is_enabled
  is_forced := is_forced
  off_by_one := false

/-- The usual limits. -/
def usualLimits : Limits where
  max_register_group_size := 125
  max_bit_size := 2000

theorem check_work_items_enabled :
    Partitions usualLimits false [holdingAt 10 true false, holdingAt 0 true false]
      (check_work_items .stable usualLimits [holdingAt 10 true false, holdingAt 0 true false]
        false) := by
  have hsize : ∀ io_point ∈ [holdingAt 10 true false, holdingAt 0 true false],
      io_point.size ≤ usualLimits.max io_point.register_type := by decide
  refine (check_work_items_partitions_iff .stable usualLimits _ false hsize).2 ?_
  exact {
    included := by decide
    device := by decide
    limit := by decide
    local_ := by
      have hsorted : Sorter.stable.sort [holdingAt 10 true false, holdingAt 0 true false] =
          [holdingAt 0 true false, holdingAt 10 true false] := by decide
      rw [hsorted]
      intro io_point hio_point before group heq
      rw [List.head?_cons, Option.mem_some_iff] at hio_point
      subst hio_point
      have henabled : ∀ other ∈ (before ++ [group]).flatten, other.is_enabled = true := by
        rw [← heq]
        decide
      rw [List.flatten_append, List.flatten_singleton] at henabled
      exact ⟨fun other hother => henabled other (List.mem_append_left _ hother),
        .inl fun other hother => henabled other (List.mem_append_right _ hother)⟩ }

/-- A forced and disabled point that comes first is in a work item. -/
theorem check_work_items_forced :
    (∀ io_point ∈ [holdingAt 0 false true, holdingAt 10 true false],
        io_point.size ≤ usualLimits.max io_point.register_type) ∧
      ¬ Partitions usualLimits false [holdingAt 0 false true, holdingAt 10 true false]
        (check_work_items .stable usualLimits [holdingAt 0 false true, holdingAt 10 true false]
          false) := by
  refine ⟨by decide, fun h => ?_⟩
  have hlength := h.points.length_eq
  revert hlength
  decide

end HybridOs.GcomWorkItems
