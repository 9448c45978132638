import HybridOs.SchedulerArranged
import Mathlib

/-!
# Schedules of a fleet and its sites

A Fleet Manager and its Site Controllers hold a copy of the schedule of each site. An edit
sends the lists of events to the connected counterparts. A new connection makes the Fleet
Manager send its copy with the time of its last edit, and the later edit shall win. Modes and
time zones are the same on both sides, and the checks of each minute are left out.
-/

namespace HybridOs.Scheduler

/-- A message to a Site Controller. -/
inductive ToSite where
  /-- `webSocketSyncData` to `update_sync`. -/
  | updateSync (lastModification : ℤ) (events : EventList)
  /-- A list of events to `events`. -/
  | events (events : EventList)

/-- The schedule of one site on both sides, and the messages about it that are on their way.
A message that was received before a connection broke is still handled afterwards. -/
structure Link where
  /-- The schedule in the `masterSchedule` of the Fleet Manager. -/
  fleet : Schedule
  /-- The Site Controller. -/
  site : Process
  connected : Bool
  /-- `ClientConnUpdates` that the Fleet Manager has not handled yet. -/
  updates : ℕ
  toSite : List ToSite
  toFleet : List EventList
  /-- The events of the schedule after the latest edit of it on either side. -/
  latest : EventList

/-- What handling a message depends on. -/
structure Receipt where
  ctx : Context
  fuel : ℕ
  /-- The modes in the message are taken over. -/
  modesHandled : Bool

namespace Link

/-- `websockets.Clients.WriteTo`. -/
def sendToSite (link : Link) (msg : ToSite) : Link :=
  if link.connected then { link with toSite := link.toSite ++ [msg] } else link

/-- `sendEventsFromSiteControllerToFleetManager`. -/
def sendEventsFromSiteControllerToFleetManager (link : Link) : Link :=
  if link.connected then
    { link with toFleet := link.toFleet ++ [link.site.schedule.aggregateAllEvents] }
  else link

/-- `sendEventsFromFleetManagerToSiteController`. -/
def sendEventsFromFleetManagerToSiteController (link : Link) : Link :=
  link.sendToSite (.events link.fleet.aggregateAllEvents)

/-- `sendUpdateSyncToSiteController`. -/
def sendUpdateSyncToSiteController (lastScheduleModification : ℤ) (link : Link) : Link :=
  link.sendToSite (.updateSync lastScheduleModification link.fleet.aggregateAllEvents)

/-- What an edit on the Fleet Manager does to this site, whose schedule it may edit:
`updateScheduleOfFleetSiteCounterpart` sends every schedule. -/
def fleetEdit (edited : Option Schedule) (link : Link) : Link :=
  let link := match edited with
    | none => link
    | some schedule => { link with fleet := schedule, latest := schedule.aggregateAllEvents }
  link.sendEventsFromFleetManagerToSiteController

/-- An edit on the Site Controller. -/
def siteEdit (now : ℤ) (edited : Schedule) (link : Link) : Link :=
  { link with
    site := { schedule := edited, lastScheduleModification := now }
    latest := edited.aggregateAllEvents }.sendEventsFromSiteControllerToFleetManager

/-- A client connects. Where it had to try again, `connect` and `readWithConnection` both
report it. -/
def connect (again : Bool) (link : Link) : Link :=
  { link with connected := true, updates := link.updates + if again then 2 else 1 }

/-- The connection breaks. Some of the messages on their way have been received before. -/
def disconnect (toSiteReceived toFleetReceived : ℕ) (link : Link) : Link :=
  { link with
    connected := false
    toSite := link.toSite.take toSiteReceived
    toFleet := link.toFleet.take toFleetReceived }

/-- `processSiteConnectionUpdate`, of a client that connected. -/
def processSiteConnectionUpdate (lastScheduleModification : ℤ) (link : Link) : Link :=
  if link.updates = 0 then link
  else { link with updates := link.updates - 1 }.sendUpdateSyncToSiteController
    lastScheduleModification

variable (encoded : EventList → Body)

/-- `handleWebSocketEventsSet` on the Site Controller. -/
def takeOver (receipt : Receipt) (events : EventList) (link : Link) : Option Link :=
  (link.site.handleWebSocketEventsSet receipt.ctx receipt.fuel (encoded events)).map
    fun result => { link with site := result.1 }

/-- `handleUpdateSyncFromFleetManager`. -/
def handleUpdateSyncFromFleetManager (receipt : Receipt) (lastModification : ℤ)
    (events : EventList) (link : Link) : Option Link :=
  if !receipt.modesHandled then some link
  else if lastModification < link.site.lastScheduleModification then
    some link.sendEventsFromSiteControllerToFleetManager
  else link.takeOver encoded receipt events

/-- The Site Controller handles the next message: `processWebSocketSet`. -/
def deliverToSite (receipt : Receipt) (link : Link) : Option Link :=
  match link.toSite with
  | [] => some link
  | .updateSync lastModification events :: toSite =>
    { link with toSite }.handleUpdateSyncFromFleetManager encoded receipt lastModification events
  | .events events :: toSite => { link with toSite }.takeOver encoded receipt events

/-- The Fleet Manager handles the next message about this site: `processWebSocketSet`. -/
def deliverToFleet (receipt : Receipt) (lastScheduleModification : ℤ) (link : Link) :
    Option Link :=
  match link.toFleet with
  | [] => some link
  | events :: toFleet =>
    (Process.handleWebSocketEventsSet receipt.ctx receipt.fuel (encoded events)
      { schedule := link.fleet, lastScheduleModification }).map
      fun result => { link with toFleet, fleet := result.1.schedule }

end Link

/-! ## The fleet -/

/-- A Fleet Manager and its Site Controllers. -/
structure Fleet (Site : Type) where
  /-- `lastScheduleModification` of the Fleet Manager. -/
  lastScheduleModification : ℤ
  link : Site → Link

namespace Fleet

variable {Site : Type} [DecidableEq Site]

/-- What happens to a fleet. Each scheduler edits by its own clock. -/
inductive Operation (Site : Type) where
  /-- The Fleet Manager edits any of its schedules at once. -/
  | fleetEdit (now : ℤ) (edited : Site → Option Schedule)
  | siteEdit (site : Site) (now : ℤ) (edited : Schedule)
  | connect (site : Site) (again : Bool)
  | disconnect (site : Site) (toSiteReceived toFleetReceived : ℕ)
  | connectionUpdate (site : Site)
  | deliverToSite (site : Site) (receipt : Receipt)
  | deliverToFleet (site : Site) (receipt : Receipt)

/-- A fleet in which one link has changed. -/
def setLink (fleet : Fleet Site) (site : Site) (link : Link) : Fleet Site :=
  { fleet with link := Function.update fleet.link site link }

/-- A change of one link, where it comes to an end. -/
def changeLink (fleet : Fleet Site) (site : Site) (changed : Option Link) :
    Except Unit (Fleet Site) :=
  match changed with
  | none => .error ()
  | some link => .ok (fleet.setLink site link)

/-- One operation. It gives nothing where it does not come to an end. -/
def step (encoded : EventList → Body) (fleet : Fleet Site) :
    Operation Site → Except Unit (Fleet Site)
  | .fleetEdit now edited =>
    .ok { lastScheduleModification := now
          link := fun site => (fleet.link site).fleetEdit (edited site) }
  | .siteEdit site now edited => .ok (fleet.setLink site ((fleet.link site).siteEdit now edited))
  | .connect site again => .ok (fleet.setLink site ((fleet.link site).connect again))
  | .disconnect site toSiteReceived toFleetReceived =>
    .ok (fleet.setLink site ((fleet.link site).disconnect toSiteReceived toFleetReceived))
  | .connectionUpdate site =>
    .ok (fleet.setLink site
      ((fleet.link site).processSiteConnectionUpdate fleet.lastScheduleModification))
  | .deliverToSite site receipt =>
    fleet.changeLink site ((fleet.link site).deliverToSite encoded receipt)
  | .deliverToFleet site receipt =>
    fleet.changeLink site
      ((fleet.link site).deliverToFleet encoded receipt fleet.lastScheduleModification)

end Fleet

/-!
## Runs of a fleet

At every time the times of the last edits favour one side of a link, and that side holds the
schedule after the latest edit. The other side holds it too, or a message that will bring it
there is on its way. Edits keep this unless the one time of the Fleet Manager stands for a
schedule that it has not edited, or a message with an older copy is still on its way.
-/

/-- The events that a message carries. -/
def ToSite.list : ToSite → EventList
  | .updateSync _ eList => eList
  | .events eList => eList

/-- A synchronization that a Site Controller with the given last edit answers with its own
schedule. -/
def ToSite.YieldsTo (modification : ℤ) : ToSite → Prop
  | .updateSync lastModification _ => lastModification < modification
  | .events _ => False

namespace Link

variable {encoded : EventList → Body} {fleetTime : ℤ} {link link' : Link}

/-- When the Site Controller was last edited. -/
abbrev siteTime (link : Link) : ℤ := link.site.lastScheduleModification

/-- The copy of the Fleet Manager. -/
abbrev fleetEvents (link : Link) : EventList := link.fleet.aggregateAllEvents

/-- The copy of the Site Controller. -/
abbrev siteEvents (link : Link) : EventList := link.site.schedule.aggregateAllEvents

/-- The Site Controller was edited later, and what it holds will reach the Fleet Manager. -/
structure SiteLed (fleetTime : ℤ) (link : Link) : Prop where
  later : fleetTime < link.siteTime
  holds : link.siteEvents = link.latest
  toSite : ∀ msg ∈ link.toSite, msg.YieldsTo link.siteTime ∨ msg.list = link.latest
  toFleet : link.connected = true → link.updates ≠ 0 ∨
    (∃ msg ∈ link.toSite, msg.YieldsTo link.siteTime) ∨
    link.toFleet.getLast? = some link.latest ∨
    link.toFleet = [] ∧ link.fleetEvents = link.latest

/-- The Site Controller was not edited later, and what the Fleet Manager holds will reach it. -/
structure FleetLed (fleetTime : ℤ) (link : Link) : Prop where
  later : link.siteTime ≤ fleetTime
  holds : link.fleetEvents = link.latest
  toFleet : link.toFleet = []
  kept : ∀ msg ∈ link.toSite, ¬ msg.YieldsTo link.siteTime
  toSite : link.connected = true → link.updates ≠ 0 ∨
    link.toSite.getLast?.map ToSite.list = some link.latest ∨
    link.toSite = [] ∧ link.siteEvents = link.latest

/-- The side that the times of the last edits favour holds the latest schedule. -/
def Led (fleetTime : ℤ) (link : Link) : Prop := link.SiteLed fleetTime ∨ link.FleetLed fleetTime

/-- One side holds the latest schedule, and when all messages of a connection have been
delivered, both do. -/
structure Synced (link : Link) : Prop where
  held : link.siteEvents = link.latest ∨ link.fleetEvents = link.latest
  both : link.connected = true → link.updates = 0 → link.toSite = [] → link.toFleet = [] →
    link.siteEvents = link.latest ∧ link.fleetEvents = link.latest

/-- A link that is led holds the latest edit on one side. -/
theorem Led.synced (h : link.Led fleetTime) : link.Synced := by
  rcases h with h | h
  · refine ⟨.inl h.holds, fun hconnected hupdates htoSite htoFleet => ⟨h.holds, ?_⟩⟩
    rcases h.toFleet hconnected with hpending | ⟨msg, hmsg, -⟩ | hlast | ⟨-, hfleet⟩
    · exact absurd hupdates hpending
    · rw [htoSite] at hmsg
      cases hmsg
    · rw [htoFleet] at hlast
      cases hlast
    · exact hfleet
  · refine ⟨.inr h.holds, fun hconnected hupdates htoSite htoFleet => ⟨?_, h.holds⟩⟩
    rcases h.toSite hconnected with hpending | hlast | ⟨-, hsite⟩
    · exact absurd hupdates hpending
    · rw [htoSite] at hlast
      cases hlast
    · exact hsite

/-! ## Edits -/

/-- The Fleet Manager may edit its schedules: no older copy of this one is on its way to it.
Where its clock has reached the last edit of the site, it edits this schedule or holds the
latest one. Where it has not, it leaves this schedule, and no older copy of it is around. -/
def FleetMayEdit (now : ℤ) (edited : Option Schedule) (link : Link) : Prop :=
  link.toFleet = [] ∧ (∀ msg ∈ link.toSite, ¬ msg.YieldsTo link.siteTime) ∧
    if link.siteTime ≤ now then edited = none → link.fleetEvents = link.latest
    else edited = none ∧ link.siteEvents = link.latest ∧
      (link.connected = true → link.fleetEvents = link.latest) ∧
      ∀ msg ∈ link.toSite, msg.list = link.latest

/-- The Site Controller may edit its schedule: by its clock the edit is later than the last
one of the Fleet Manager, and than those of the messages on their way to it. -/
def SiteMayEdit (fleetTime now : ℤ) (link : Link) : Prop :=
  fleetTime < now ∧ ∀ msg ∈ link.toSite, msg.YieldsTo now

/-- An edit of the fleet changes its side of the link and sends. -/
theorem fleetEdit_cases (edited : Option Schedule) (link : Link) :
    (link.fleetEdit edited).site = link.site ∧
    (link.fleetEdit edited).connected = link.connected ∧
    (link.fleetEdit edited).updates = link.updates ∧
    (link.fleetEdit edited).toFleet = link.toFleet ∧
    (link.fleetEdit edited).fleet = edited.getD link.fleet ∧
    (link.fleetEdit edited).latest =
      (edited.map Schedule.aggregateAllEvents).getD link.latest ∧
    (link.fleetEdit edited).toSite = if link.connected then
      link.toSite ++ [.events (edited.getD link.fleet).aggregateAllEvents] else link.toSite := by
  cases edited with
  | none | some schedule =>
    rw [fleetEdit, sendEventsFromFleetManagerToSiteController, sendToSite]
    by_cases hconnected : link.connected = true
    · simp [hconnected]
    · simp [hconnected]

/-- The fleet leads after its edit, or the site stays ahead. -/
theorem led_fleetEdit {now : ℤ} {edited : Option Schedule}
    (hmay : link.FleetMayEdit now edited) : (link.fleetEdit edited).Led now := by
  obtain ⟨htoFleet, hkept, hrest⟩ := hmay
  obtain ⟨hsite, hconnected, hupdates, htoFleet', hfleet, hlatest, htoSite⟩ :=
    fleetEdit_cases edited link
  by_cases hreached : link.siteTime ≤ now
  · rw [if_pos hreached] at hrest
    have hholds : (edited.getD link.fleet).aggregateAllEvents =
        (edited.map Schedule.aggregateAllEvents).getD link.latest := by
      cases edited with
      | none => exact hrest rfl
      | some schedule => rfl
    refine .inr ⟨?_, ?_, ?_, ?_, ?_⟩
    · rw [siteTime, hsite]
      exact hreached
    · rw [fleetEvents, hfleet, hlatest, hholds]
    · rw [htoFleet', htoFleet]
    · intro msg hmsg
      rw [siteTime, hsite]
      rw [htoSite] at hmsg
      split_ifs at hmsg with hup
      · rcases List.mem_append.mp hmsg with hold | hnew
        · exact hkept msg hold
        · rw [List.mem_singleton.mp hnew]
          exact not_false
      · exact hkept msg hmsg
    · intro hup
      rw [hconnected] at hup
      right
      left
      rw [htoSite, if_pos hup, List.getLast?_concat, hlatest, ← hholds]
      rfl
  · rw [if_neg hreached] at hrest
    obtain ⟨rfl, hholds, hfleetHolds, hcopies⟩ := hrest
    refine .inl ⟨?_, ?_, ?_, ?_⟩
    · rw [siteTime, hsite]
      exact not_le.mp hreached
    · rw [siteEvents, hsite, hlatest]
      exact hholds
    · intro msg hmsg
      right
      rw [htoSite] at hmsg
      rw [hlatest]
      split_ifs at hmsg with hup
      · rcases List.mem_append.mp hmsg with hold | hnew
        · exact hcopies msg hold
        · rw [List.mem_singleton.mp hnew]
          exact hfleetHolds hup
      · exact hcopies msg hmsg
    · intro hup
      rw [hconnected] at hup
      right
      right
      right
      rw [htoFleet', fleetEvents, hfleet, hlatest]
      exact ⟨htoFleet, hfleetHolds hup⟩

/-- The site leads after its edit. -/
theorem led_siteEdit {now : ℤ} (edited : Schedule) (hmay : link.SiteMayEdit fleetTime now) :
    (link.siteEdit now edited).Led fleetTime := by
  obtain ⟨hlater, hyields⟩ := hmay
  left
  rw [siteEdit, sendEventsFromSiteControllerToFleetManager]
  split_ifs with hup
  · refine ⟨hlater, rfl, fun msg hmsg => .inl (hyields msg hmsg), fun _ => ?_⟩
    right
    right
    left
    exact List.getLast?_concat
  · exact ⟨hlater, rfl, fun msg hmsg => .inl (hyields msg hmsg), fun hconnected =>
      absurd hconnected hup⟩

/-! ## Connections -/

/-- A link stays led when it is connected. -/
theorem Led.connect (h : link.Led fleetTime) (again : Bool) :
    (link.connect again).Led fleetTime := by
  have hpending : (link.connect again).updates ≠ 0 := by
    rw [Link.connect]
    dsimp only
    split_ifs
    · omega
    · omega
  rcases h with h | h
  · exact .inl ⟨h.later, h.holds, h.toSite, fun _ => .inl hpending⟩
  · exact .inr ⟨h.later, h.holds, h.toFleet, h.kept, fun _ => .inl hpending⟩

/-- A link stays led when it is disconnected, whatever has been received. -/
theorem Led.disconnect (h : link.Led fleetTime) (toSiteReceived toFleetReceived : ℕ) :
    (link.disconnect toSiteReceived toFleetReceived).Led fleetTime := by
  rcases h with h | h
  · refine .inl ⟨h.later, h.holds, fun msg hmsg => ?_, fun hconnected => Bool.noConfusion hconnected⟩
    exact h.toSite msg (List.mem_of_mem_take hmsg)
  · refine .inr ⟨h.later, h.holds, ?_, fun msg hmsg => ?_, fun hconnected =>
      Bool.noConfusion hconnected⟩
    · rw [Link.disconnect, h.toFleet, List.take_nil]
    · exact h.kept msg (List.mem_of_mem_take hmsg)

/-- A link stays led when update_sync is sent. -/
theorem Led.connectionUpdate (h : link.Led fleetTime) :
    (link.processSiteConnectionUpdate fleetTime).Led fleetTime := by
  rw [processSiteConnectionUpdate]
  by_cases hupdates : link.updates = 0
  · rw [if_pos hupdates]
    exact h
  · rw [if_neg hupdates, sendUpdateSyncToSiteController, sendToSite]
    by_cases hup : link.connected = true
    · rw [if_pos hup]
      rcases h with h | h
      · have hnew : (ToSite.updateSync fleetTime link.fleetEvents).YieldsTo link.siteTime := h.later
        refine .inl ⟨h.later, h.holds, fun msg hmsg => ?_, fun _ => .inr (.inl ?_)⟩
        · rcases List.mem_append.mp hmsg with hold | hlast
          · exact h.toSite msg hold
          · rw [List.mem_singleton.mp hlast]
            exact .inl hnew
        · exact ⟨_, List.mem_append_right _ (List.mem_singleton_self _), hnew⟩
      · refine .inr ⟨h.later, h.holds, h.toFleet, fun msg hmsg => ?_, fun _ => .inr (.inl ?_)⟩
        · rcases List.mem_append.mp hmsg with hold | hlast
          · exact h.kept msg hold
          · rw [List.mem_singleton.mp hlast]
            exact not_lt.mpr h.later
        · rw [List.getLast?_concat]
          exact congrArg some h.holds
    · rw [if_neg hup]
      rcases h with h | h
      · exact .inl ⟨h.later, h.holds, h.toSite, fun hconnected => absurd hconnected hup⟩
      · exact .inr ⟨h.later, h.holds, h.toFleet, h.kept, fun hconnected => absurd hconnected hup⟩

/-! ## Deliveries -/

/-- A list that a scheduler can take over as it is. Decoding and validating the encoded list
gives its events, each passes the validation as it is, and no two overlap. At most the first
event has started by the scheduler's clock: it has not ended, or the active event of its start
is updated to it. The others are to come, and the active event starts before them. -/
structure CanTake (encoded : EventList → Body) (receipt : Receipt) (proc : Process)
    (eList : EventList) : Prop where
  /-- There is fuel for the check of overlaps. -/
  fuel : 0 < receipt.fuel
  /-- The list is decoded and validated to its events. -/
  decoded : (encoded eList).marshals = true ∧ ∃ inputs, (encoded eList).eventList =
    some (some inputs) ∧ List.Forall₂ (fun input e =>
      validateInput proc.schedule.timezone receipt.ctx.mapOfVariables input = .ok e) inputs eList
  /-- Each event is validated to itself. -/
  valid : ∀ e ∈ eList,
    e.validate proc.schedule.timezone receipt.ctx.mapOfVariables = .ok e
  /-- No two events overlap. -/
  apart : eList.hasOverlaps receipt.fuel = some false
  /-- At most the first event has started; the others are to come. -/
  placed : ∃ (current : Option Event) (toCome : EventList), eList = current.toList ++ toCome ∧
    toCome.Pairwise NotAfter ∧ (∀ e ∈ toCome, e.passedStartTime receipt.ctx.now = false) ∧
    (∀ a ∈ proc.schedule.activeEvent, ∀ e ∈ toCome,
      a.startTime.instant < e.startTime.instant) ∧
    ∀ e ∈ current, Schedule.Starts receipt.ctx proc.schedule.activeEvent e e

/-- The next message to the Site Controller can be handled: its modes are, and a list that is
not older can be taken over. -/
def SiteCanTake (encoded : EventList → Body) (receipt : Receipt) (link : Link) : Prop :=
  ∀ msg ∈ link.toSite.head?, receipt.modesHandled = true ∧
    (¬ msg.YieldsTo link.siteTime → CanTake encoded receipt link.site msg.list)

/-- The next list for the Fleet Manager can be taken over. -/
def FleetCanTake (encoded : EventList → Body) (receipt : Receipt) (fleetTime : ℤ) (link : Link) :
    Prop :=
  ∀ eList ∈ link.toFleet.head?,
    CanTake encoded receipt { schedule := link.fleet, lastScheduleModification := fleetTime } eList

/-- A scheduler that takes a list over then holds just its events. -/
theorem CanTake.takes {receipt : Receipt} {proc : Process} {eList : EventList}
    (h : CanTake encoded receipt proc eList)
    {result : Process × Return (Except ErrorResponse Unit)}
    (hresult : proc.handleWebSocketEventsSet receipt.ctx receipt.fuel (encoded eList) =
      some result) : result.1.schedule.aggregateAllEvents = eList := by
  obtain ⟨current, toCome, hparts, htoCome, hlater, hbefore, hcurrent⟩ := h.placed
  have hstarts : Option.Rel (Schedule.Starts receipt.ctx proc.schedule.activeEvent) current
      current := by
    cases current with
    | none => exact .none
    | some e => exact .some (hcurrent e rfl)
  have hfirst : ∀ a ∈ current, ∀ e ∈ toCome, a.startTime.instant < e.startTime.instant :=
    fun a ha => (hcurrent a ha).before hbefore hlater
  have hsorted : eList.Pairwise NotAfter := by
    rw [hparts, List.pairwise_append]
    refine ⟨?_, htoCome, fun a ha e he => ?_⟩
    · cases current with
      | none => exact List.Pairwise.nil
      | some a => exact List.pairwise_singleton _ a
    · exact notAfter_of_instant_lt (hfirst a (Option.mem_toList.mp ha) e he)
  have hsort : EventList.sort eList = eList := EventList.sort_of_pairwise hsorted
  obtain ⟨hmarshals, inputs, hinputs, hdecoded⟩ := h.decoded
  have hparsed : Process.parseEventList receipt.ctx receipt.fuel proc.schedule.timezone
      (encoded eList) = some (.ok eList) := by
    rw [Process.parseEventList, hmarshals, if_pos rfl, hinputs]
    dsimp only
    rw [EventList.validateInputs, CheckedRun.mapM_ok_iff.mpr hdecoded]
    dsimp only
    rw [h.apart, hsort]
    rfl
  have hvalid : eList.validate receipt.fuel proc.schedule.timezone receipt.ctx.mapOfVariables =
      some (.ok (current.toList ++ toCome)) := by
    rw [EventList.validate_ok_iff, ← hparts]
    exact ⟨eList, List.forall₂_same.mpr h.valid, h.apart, hsort.symm⟩
  rw [Process.handleWebSocketEventsSet, hparsed] at hresult
  dsimp only at hresult
  rw [Process.overwrite_arranged current hvalid h.fuel hbefore hstarts hlater htoCome] at hresult
  cases hresult
  rw [hparts]
  exact Schedule.aggregateAllEvents_arranged rfl htoCome hfirst

/-- A received list leaves the time of the last edit. -/
theorem handleWebSocketEventsSet_time {ctx : Context} {fuel : ℕ} {input : Body}
    {proc : Process} {result : Process × Return (Except ErrorResponse Unit)}
    (h : proc.handleWebSocketEventsSet ctx fuel input = some result) :
    result.1.lastScheduleModification = proc.lastScheduleModification := by
  rw [Process.handleWebSocketEventsSet] at h
  split at h
  · cases h
  · cases h
    rfl
  next eList hparse =>
    rw [Process.overwrite] at h
    split at h
    · cases h
    · cases h
      rfl
    · split at h
      · cases h
      · cases h
        rfl
      · cases h
        rfl

variable {receipt : Receipt}

/-- Taking over a list changes the schedule of the Site Controller and nothing else. -/
theorem takeOver_cases {eList : EventList} (h : link.takeOver encoded receipt eList = some link')
    (htakes : CanTake encoded receipt link.site eList) :
    ∃ site, link' = { link with site } ∧ site.schedule.aggregateAllEvents = eList ∧
      site.lastScheduleModification = link.siteTime := by
  obtain ⟨result, hresult, rfl⟩ := Option.map_eq_some_iff.mp h
  exact ⟨result.1, rfl, htakes.takes hresult, handleWebSocketEventsSet_time hresult⟩

/-- A message that does not yield is taken over. -/
theorem deliverToSite_cases {msg : ToSite} {rest : List ToSite} (hqueue : link.toSite = msg :: rest)
    (htakes : link.SiteCanTake encoded receipt)
    (h : link.deliverToSite encoded receipt = some link') :
    (msg.YieldsTo link.siteTime ∧ link' =
      { link with toSite := rest }.sendEventsFromSiteControllerToFleetManager) ∨
    (¬ msg.YieldsTo link.siteTime ∧ ∃ site, link' = { link with toSite := rest, site } ∧
      site.schedule.aggregateAllEvents = msg.list ∧
      site.lastScheduleModification = link.siteTime) := by
  obtain ⟨hmodes, htaken⟩ := htakes msg (by rw [hqueue]; rfl)
  cases msg with
  | updateSync lastModification eList =>
    rw [deliverToSite, hqueue] at h
    dsimp only at h
    rw [handleUpdateSyncFromFleetManager, hmodes, if_neg (by simp)] at h
    by_cases hyields : lastModification < link.siteTime
    · rw [if_pos hyields] at h
      cases h
      exact .inl ⟨hyields, rfl⟩
    · rw [if_neg hyields] at h
      exact .inr ⟨hyields, takeOver_cases h (htaken hyields)⟩
  | events eList =>
    rw [deliverToSite, hqueue] at h
    exact .inr ⟨not_false, takeOver_cases h (htaken not_false)⟩

/-- A link led by the site stays so when the site handles a message. -/
theorem SiteLed.deliverToSite (h : link.SiteLed fleetTime) (htakes : link.SiteCanTake encoded receipt)
    (hdeliver : link.deliverToSite encoded receipt = some link') : link'.SiteLed fleetTime := by
  cases hqueue : link.toSite with
  | nil =>
    rw [Link.deliverToSite, hqueue] at hdeliver
    cases hdeliver
    exact h
  | cons msg rest =>
    have hrest : ∀ m ∈ rest, m.YieldsTo link.siteTime ∨ m.list = link.latest := by
      intro m hm
      exact h.toSite m (by rw [hqueue]; exact List.mem_cons_of_mem msg hm)
    rcases deliverToSite_cases hqueue htakes hdeliver with
      ⟨-, rfl⟩ | ⟨hkeeps, site, rfl, hsite, htime⟩
    · rw [sendEventsFromSiteControllerToFleetManager]
      split_ifs with hup
      · refine ⟨h.later, h.holds, hrest, fun _ => .inr (.inr (.inl ?_))⟩
        rw [List.getLast?_concat]
        exact congrArg some h.holds
      · exact ⟨h.later, h.holds, hrest, fun hconnected => absurd hconnected hup⟩
    · have hlist : msg.list = link.latest :=
        (h.toSite msg (by rw [hqueue]; exact List.mem_cons_self)).resolve_left hkeeps
      refine ⟨?_, hsite.trans hlist, ?_, fun hup => ?_⟩
      · rw [siteTime, htime]
        exact h.later
      · intro m hm
        rw [siteTime, htime]
        exact hrest m hm
      · rw [siteTime, htime]
        refine (h.toFleet hup).imp_right (Or.imp_left ?_)
        rintro ⟨m, hm, hyields⟩
        rw [hqueue] at hm
        rcases List.mem_cons.mp hm with rfl | hm
        · exact absurd hyields hkeeps
        · exact ⟨m, hm, hyields⟩

/-- A link led by the fleet stays so when the site handles a message. -/
theorem FleetLed.deliverToSite (h : link.FleetLed fleetTime)
    (htakes : link.SiteCanTake encoded receipt)
    (hdeliver : link.deliverToSite encoded receipt = some link') : link'.FleetLed fleetTime := by
  cases hqueue : link.toSite with
  | nil =>
    rw [Link.deliverToSite, hqueue] at hdeliver
    cases hdeliver
    exact h
  | cons msg rest =>
    have hkept : ∀ m ∈ msg :: rest, ¬ m.YieldsTo link.siteTime := by
      intro m hm
      exact h.kept m (by rw [hqueue]; exact hm)
    rcases deliverToSite_cases hqueue htakes hdeliver with
      ⟨hyields, -⟩ | ⟨-, site, rfl, hsite, htime⟩
    · exact absurd hyields (hkept msg List.mem_cons_self)
    · refine ⟨?_, h.holds, h.toFleet, fun m hm => ?_, fun hup => ?_⟩
      · rw [siteTime, htime]
        exact h.later
      · rw [siteTime, htime]
        exact hkept m (List.mem_cons_of_mem msg hm)
      · refine (h.toSite hup).imp_right fun hpending => ?_
        rcases hpending with hlast | ⟨hempty, -⟩
        · rw [hqueue] at hlast
          -- the last message of the queue may be the one that is delivered
          cases rest with
          | nil =>
            right
            exact ⟨rfl, hsite.trans (Option.some.inj hlast)⟩
          | cons next rest =>
            left
            rw [List.getLast?_cons_cons] at hlast
            exact hlast
        · rw [hqueue] at hempty
          cases hempty

/-- A led link stays led when the site handles a message. -/
theorem Led.deliverToSite (h : link.Led fleetTime) (htakes : link.SiteCanTake encoded receipt)
    (hdeliver : link.deliverToSite encoded receipt = some link') : link'.Led fleetTime := by
  rcases h with h | h
  · exact .inl (h.deliverToSite htakes hdeliver)
  · exact .inr (h.deliverToSite htakes hdeliver)

/-- A led link stays led when the fleet handles a list. -/
theorem Led.deliverToFleet (h : link.Led fleetTime)
    (htakes : link.FleetCanTake encoded receipt fleetTime)
    (hdeliver : link.deliverToFleet encoded receipt fleetTime = some link') :
    link'.Led fleetTime := by
  cases hqueue : link.toFleet with
  | nil =>
    rw [Link.deliverToFleet, hqueue] at hdeliver
    cases hdeliver
    exact h
  | cons eList rest =>
    rw [Link.deliverToFleet, hqueue] at hdeliver
    obtain ⟨result, hresult, rfl⟩ := Option.map_eq_some_iff.mp hdeliver
    have hholds := (htakes eList (by rw [hqueue]; rfl)).takes hresult
    rcases h with h | h
    · refine .inl ⟨h.later, h.holds, h.toSite, fun hup => ?_⟩
      refine (h.toFleet hup).imp_right (Or.imp_right fun hpending => ?_)
      rcases hpending with hlast | ⟨hempty, -⟩
      · rw [hqueue] at hlast
        cases rest with
        | nil =>
          right
          exact ⟨rfl, hholds.trans (Option.some.inj hlast)⟩
        | cons next rest =>
          left
          rw [List.getLast?_cons_cons] at hlast
          exact hlast
      · rw [hqueue] at hempty
        cases hempty
    · rw [h.toFleet] at hqueue
      cases hqueue

end Link

/-! ## Runs -/

namespace Fleet

variable {Site : Type} {encoded : EventList → Body}

/-- The operation keeps the side that the times of the last edits favour the one that holds the
latest schedule. -/
def Keeps (encoded : EventList → Body) (fleet : Fleet Site) : Operation Site → Prop
  | .fleetEdit now edited => ∀ site, (fleet.link site).FleetMayEdit now (edited site)
  | .siteEdit site now _ => (fleet.link site).SiteMayEdit fleet.lastScheduleModification now
  | .deliverToSite site receipt => (fleet.link site).SiteCanTake encoded receipt
  | .deliverToFleet site receipt =>
    (fleet.link site).FleetCanTake encoded receipt fleet.lastScheduleModification
  | _ => True

/-- Every link is led. -/
def Led (fleet : Fleet Site) : Prop :=
  ∀ site, (fleet.link site).Led fleet.lastScheduleModification

/-- Nothing is on its way, and both sides hold the same schedules. -/
def Agreed (fleet : Fleet Site) : Prop :=
  ∀ site, (fleet.link site).toSite = [] ∧ (fleet.link site).toFleet = [] ∧
    (fleet.link site).siteEvents = (fleet.link site).latest ∧
    (fleet.link site).fleetEvents = (fleet.link site).latest

/-- Every site is synchronized. -/
def Synced (fleet : Fleet Site) : Prop := ∀ site, (fleet.link site).Synced

/-- In a fleet whose links are led every link is synced. -/
theorem Led.synced {fleet : Fleet Site} (h : fleet.Led) : fleet.Synced := fun site =>
  (h site).synced

/-- A fleet that agrees is led. -/
theorem Agreed.led {fleet : Fleet Site} (h : fleet.Agreed) : fleet.Led := by
  intro site
  obtain ⟨htoSite, htoFleet, hsite, hfleet⟩ := h site
  by_cases hlater : fleet.lastScheduleModification < (fleet.link site).siteTime
  · refine .inl ⟨hlater, hsite, fun msg hmsg => ?_, fun _ =>
      .inr (.inr (.inr ⟨htoFleet, hfleet⟩))⟩
    rw [htoSite] at hmsg
    cases hmsg
  · refine .inr ⟨not_lt.mp hlater, hfleet, htoFleet, fun msg hmsg => ?_, fun _ =>
      .inr (.inr ⟨htoSite, hsite⟩)⟩
    rw [htoSite] at hmsg
    cases hmsg

variable [DecidableEq Site]

/-- Changing one link to a led one keeps the fleet led. -/
theorem Led.setLink {fleet : Fleet Site} (h : fleet.Led) {site : Site} {link : Link}
    (hlink : link.Led fleet.lastScheduleModification) : (fleet.setLink site link).Led := by
  intro other
  by_cases hother : other = site
  · subst hother
    rw [Fleet.setLink]
    dsimp only
    rw [Function.update_self]
    exact hlink
  · rw [Fleet.setLink]
    dsimp only
    rw [Function.update_of_ne hother]
    exact h other

/-- A change of a link that succeeds sets this link. -/
theorem changeLink_ok {fleet fleet' : Fleet Site} {site : Site} {changed : Option Link}
    (h : fleet.changeLink site changed = .ok fleet') :
    ∃ link, changed = some link ∧ fleet' = fleet.setLink site link := by
  cases changed with
  | none => cases h
  | some link =>
    cases h
    exact ⟨link, rfl, rfl⟩

/-- Every operation under its condition keeps the fleet led. -/
theorem step_led (fleet : Fleet Site) (operation : Operation Site) (fleet' : Fleet Site)
    (h : fleet.Led) (hkeeps : fleet.Keeps encoded operation)
    (hstep : fleet.step encoded operation = .ok fleet') : fleet'.Led := by
  cases operation with
  | fleetEdit now edited =>
    cases hstep
    exact fun site => Link.led_fleetEdit (hkeeps site)
  | siteEdit site now edited =>
    cases hstep
    exact h.setLink (Link.led_siteEdit edited hkeeps)
  | connect site again =>
    cases hstep
    exact h.setLink ((h site).connect again)
  | disconnect site toSiteReceived toFleetReceived =>
    cases hstep
    exact h.setLink ((h site).disconnect toSiteReceived toFleetReceived)
  | connectionUpdate site =>
    cases hstep
    exact h.setLink (h site).connectionUpdate
  | deliverToSite site receipt =>
    obtain ⟨link, hlink, rfl⟩ := changeLink_ok hstep
    exact h.setLink ((h site).deliverToSite hkeeps hlink)
  | deliverToFleet site receipt =>
    obtain ⟨link, hlink, rfl⟩ := changeLink_ok hstep
    exact h.setLink ((h site).deliverToFleet hkeeps hlink)

/-- Along every run whose operations keep the favoured sides up to date, one side of each link
holds the latest schedule, and both do when all messages of the connection are delivered. -/
theorem run_synced {fleet : Fleet Site} (h : fleet.Agreed) (operations : List (Operation Site))
    (hkeeps : CheckedRun.Guarded (step encoded) (Keeps encoded) fleet operations) :
    CheckedRun.Guarded (step encoded) (fun fleet _ => fleet.Synced) fleet operations ∧
      ∀ fleet', CheckedRun.run (step encoded) fleet operations = .ok fleet' → fleet'.Synced := by
  constructor
  · refine CheckedRun.guarded_law Led (fun mid operation hled hkeep => ?_) h.led hkeeps
    exact ⟨hled.synced, fun next => step_led mid operation next hled hkeep⟩
  · intro fleet' hrun
    exact (CheckedRun.run_invariant step_led h.led hkeeps hrun).synced

/-! ## Two sites -/

/-- What decoding an encoded list of events gives. -/
def decodedList (eList : EventList) : Body :=
  { Process.emptyBody with
    marshals := true
    eventList := some (some (eList.map fun e => some
      ⟨e.id, e.startTime, e.duration, e.mode, e.variableMap, some e.repeatSettings⟩)) }

/-- A disconnected site without events. -/
def emptyLink : Link where
  fleet := Process.emptySchedule.schedule
  site := Process.emptySchedule
  connected := false
  updates := 0
  toSite := []
  toFleet := []
  latest := []

/-- Two sites without events. -/
def emptyFleet : Fleet Bool := ⟨0, fun _ => emptyLink⟩

/-- A schedule with one daily event. -/
def dailySchedule : Schedule :=
  { Process.emptySchedule.schedule with
    scheduledEvents := [Process.everyDayAt (8 * hour)]
    cache := {0} }

/-- A message is handled on a day without other events. -/
def quietReceipt : Receipt := ⟨Process.quietDay 0, 9, true⟩

/-- A site gets its daily event while it is disconnected, the Fleet Manager then clears the
schedule of the other site, and the first site connects. -/
def editThenClearOther : List (Operation Bool) :=
  [.siteEdit true 1 dailySchedule,
    .fleetEdit 2 fun site => if site then none else some Process.emptySchedule.schedule,
    .connect true false, .connectionUpdate true, .deliverToSite true quietReceipt]

/-- The fleet without events agrees. -/
theorem emptyFleet_agreed : emptyFleet.Agreed := fun _ => ⟨rfl, rfl, rfl, rfl⟩

/-- In the end both sides of the first link have lost the event. -/
theorem editThenClearOther_empties :
    (CheckedRun.run (step decodedList) emptyFleet editThenClearOther).toOption.map
      (fun fleet => ((fleet.link true).connected, (fleet.link true).updates,
        (fleet.link true).toSite.length, (fleet.link true).toFleet.length,
        (fleet.link true).siteEvents.length, (fleet.link true).latest.length)) =
      some (true, 0, 0, 0, 0, 1) := by
  decide +kernel

/-- Not every run from agreed schedules leaves the connected sides with the latest edits. -/
theorem editThenClearOther_losesEdit : ¬ ∀ (fleet : Fleet Bool) (operations : List (Operation Bool))
    (fleet' : Fleet Bool), fleet.Agreed →
      CheckedRun.run (step decodedList) fleet operations = .ok fleet' → fleet'.Synced := by
  intro h
  obtain ⟨fleet', hrun, hend⟩ := Option.map_eq_some_iff.mp editThenClearOther_empties
  have hsynced := h emptyFleet editThenClearOther fleet' emptyFleet_agreed
    (CheckedRun.ok_of_toOption hrun) true
  simp only [Prod.mk.injEq, List.length_eq_zero_iff] at hend
  obtain ⟨hconnected, hupdates, htoSite, htoFleet, hsite, hlatest⟩ := hend
  have hboth := (hsynced.both hconnected hupdates htoSite htoFleet).1
  rw [← hboth, hsite] at hlatest
  cases hlatest

/-- The site gets its daily event while it is disconnected, connects and sends it. -/
def editThenConnect : List (Operation Bool) :=
  [.siteEdit true 1 dailySchedule, .connect true false, .connectionUpdate true,
    .deliverToSite true quietReceipt, .deliverToFleet true quietReceipt]

/-- The Fleet Manager can take over the daily event of the site. -/
theorem canTake_daily : Link.CanTake decodedList quietReceipt Process.emptySchedule
    [Process.everyDayAt (8 * hour)] := by
  refine ⟨by decide, ⟨rfl, _, rfl, .cons Process.firstDaily_valid .nil⟩, ?_, rfl, ?_⟩
  · intro e he
    rw [List.mem_singleton.mp he]
    exact Process.firstDaily_valid
  · refine ⟨none, _, rfl, List.pairwise_singleton _ _, ?_, ?_, ?_⟩
    · intro e he
      rw [List.mem_singleton.mp he]
      decide
    · rintro a ⟨⟩
    · rintro e ⟨⟩

theorem run_synced_editThenConnect :
    CheckedRun.Guarded (step decodedList) (fun fleet _ => fleet.Synced) emptyFleet editThenConnect ∧
      ∀ fleet', CheckedRun.run (step decodedList) emptyFleet editThenConnect = .ok fleet' →
        fleet'.Synced := by
  refine run_synced emptyFleet_agreed _ ?_
  refine CheckedRun.guarded_cons ⟨by decide, fun msg hmsg => absurd hmsg List.not_mem_nil⟩ rfl ?_
  refine CheckedRun.guarded_cons trivial rfl (CheckedRun.guarded_cons trivial rfl ?_)
  refine CheckedRun.guarded_cons (fun msg hmsg => ?_) rfl ?_
  · cases hmsg
    have hearlier : (0 : ℤ) < 1 := by decide
    exact ⟨rfl, fun hyields => absurd hearlier hyields⟩
  · refine CheckedRun.guarded_cons (fun eList hlist => ?_) rfl trivial
    cases hlist
    exact canTake_daily

end Fleet

end HybridOs.Scheduler
