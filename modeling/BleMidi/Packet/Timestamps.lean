/- Module: BleMidi/Packet/Timestamps
   digest: Which timestamps a receiver rebuilds from the timestamp bytes of a packet. -/

import BleMidi.Packet.Grammar

set_option autoImplicit false
set_option relaxedAutoImplicit false

namespace BleMidi.Packet.Timestamps

open BleMidi.Packet.Bytes
open BleMidi.Packet.PacketParser
open BleMidi.Packet.PacketScan
open BleMidi.Packet.Grammar

/-- The timestamp of an event. Sysex data has none. -/
def time? : Event → Option UInt16
  | .midiMessage _ timestamp => some timestamp
  | .sysexStart timestamp => some timestamp
  | .sysexData _ => none
  | .sysexEnd timestamp => some timestamp

def mapTime (f : UInt16 → UInt16) : Event → Event
  | .midiMessage bytes timestamp => .midiMessage bytes (f timestamp)
  | .sysexStart timestamp => .sysexStart (f timestamp)
  | .sysexData dataByte => .sysexData dataByte
  | .sysexEnd timestamp => .sysexEnd (f timestamp)

/-- Whether a sysex message is open behind the event. -/
def openBehind (inSysex : Bool) : Event → Bool
  | .sysexStart _ => true
  | .sysexEnd _ => false
  | _ => inSysex

@[simp] theorem untimed_mapTime (f : UInt16 → UInt16) (e : Event) :
    untimed (mapTime f e) = untimed e := by
  cases e <;> rfl

@[simp] theorem time?_mapTime (f : UInt16 → UInt16) (e : Event) :
    time? (mapTime f e) = (time? e).map f := by
  cases e <;> rfl

@[simp] theorem openBehind_mapTime (inSysex : Bool) (f : UInt16 → UInt16) (e : Event) :
    openBehind inSysex (mapTime f e) = openBehind inSysex e := by
  cases e <;> rfl

/-- A receiver that is sent seven bits of each timestamp. -/
@[ext] structure Receiver where
  inSysex : Bool
  prevTimestamp : UInt8
  high : UInt8
  deriving DecidableEq

/-- The part of a scan that rebuilds timestamps. -/
def receiver (s : ScanState) : Receiver := ⟨s.inSysex, s.prevTimestamp, s.high⟩

/-- The wrap tracking at a timestamp byte outside sysex messages. -/
def Receiver.see (r : Receiver) (timestamp : UInt16) : Receiver :=
  { r with
    high := if timestampByte timestamp < r.prevTimestamp then (r.high + 1) % 0x40 else r.high
    prevTimestamp := timestampByte timestamp }

/-- The receiver that rebuilds the timestamp of an event: wraps are tracked outside sysex only. -/
def Receiver.track (r : Receiver) (e : Event) : Receiver :=
  if r.inSysex then r
  else
    match time? e with
    | some timestamp => r.see timestamp
    | none => r

/-- The event as reported, with its timestamp rebuilt. -/
def Receiver.report (r : Receiver) (e : Event) : Event :=
  mapTime (fun timestamp => timestampMs (r.track e).high (timestampByte timestamp)) e

def Receiver.next (r : Receiver) (e : Event) : Receiver :=
  { r.track e with inSysex := openBehind r.inSysex e }

def Receiver.reports (r : Receiver) : List Event → List Event
  | [] => []
  | e :: es => r.report e :: (r.next e).reports es

def Receiver.after (r : Receiver) (events : List Event) : Receiver := events.foldl Receiver.next r

theorem Receiver.reports_append (r : Receiver) (es fs : List Event) :
    r.reports (es ++ fs) = r.reports es ++ (r.after es).reports fs := by
  induction es generalizing r with
  | nil => rfl
  | cons e es ih =>
    change r.report e :: (r.next e).reports (es ++ fs) = _
    rw [ih]
    rfl

theorem Receiver.after_append (r : Receiver) (es fs : List Event) :
    r.after (es ++ fs) = (r.after es).after fs :=
  List.foldl_append

@[simp] theorem Receiver.untimed_reports (r : Receiver) (es : List Event) :
    (r.reports es).map untimed = es.map untimed := by
  induction es generalizing r with
  | nil => rfl
  | cons e es ih =>
    change untimed (r.report e) :: ((r.next e).reports es).map untimed = _
    rw [ih, Receiver.report, untimed_mapTime]
    rfl

/-- A BLE MIDI timestamp has thirteen bits. -/
def wrapped (timestamp : UInt16) : UInt16 := timestamp % 8192

/-- From one timestamp to the next by at most 127 ms, modulo the wrap of thirteen bits. -/
def Advances (t t' : UInt16) : Prop := (t' - t) % 8192 ≤ 127

instance (t t' : UInt16) : Decidable (Advances t t') := inferInstanceAs (Decidable (_ ≤ _))

theorem advances_iff (t t' : UInt16) :
    Advances t t' ↔ (t'.toNat + 65536 - t.toNat) % 8192 ≤ 127 := by
  have bound := UInt16.toNat_lt t
  unfold Advances
  rw [UInt16.le_iff_toNat_le, UInt16.toNat_mod, UInt16.toNat_sub]
  simp only [UInt16.reduceToNat]
  omega

theorem Advances.refl (t : UInt16) : Advances t t := by
  rw [advances_iff]
  omega

/-- The receiver whose clock stands at a timestamp. -/
def Receiver.at (inSysex : Bool) (t : UInt16) : Receiver :=
  ⟨inSysex, timestampByte t, timestampHigh t⟩

/-- The receiver behind the header of a packet whose first event has the given timestamp. -/
def Receiver.start (inSysex : Bool) (t : UInt16) : Receiver := ⟨inSysex, 0, timestampHigh t⟩

private theorem wrapped_toNat (t : UInt16) : (wrapped t).toNat = t.toNat % 8192 := by
  simp [wrapped]

private theorem rebuilt_toNat {high : UInt8} (h : high.toNat < 64) (t : UInt16) :
    (timestampMs high (timestampByte t)).toNat = high.toNat * 128 + t.toNat % 128 := by
  rw [timestampMs_toNat _ h, timestampByte_toNat]
  omega

theorem see_at_high (inSysex : Bool) (t t' : UInt16) :
    ((Receiver.at inSysex t).see t').high.toNat =
      if t'.toNat % 128 < t.toNat % 128 then (t.toNat / 128 + 1) % 64 else t.toNat / 128 % 64 := by
  have lower : timestampByte t' < timestampByte t ↔ t'.toNat % 128 < t.toNat % 128 := by
    rw [UInt8.lt_iff_toNat_lt, timestampByte_toNat, timestampByte_toNat]
    omega
  simp only [Receiver.see, Receiver.at, lower]
  split
  · rw [UInt8.toNat_mod, UInt8.toNat_add, timestampHigh_toNat]
    simp only [UInt8.reduceToNat]
    omega
  · exact timestampHigh_toNat t

/-- A clock rebuilds the timestamps that are at most 127 ms ahead of it, and no others. -/
theorem rebuilt_iff (inSysex : Bool) (t t' : UInt16) :
    timestampMs ((Receiver.at inSysex t).see t').high (timestampByte t') = wrapped t' ↔
      Advances t t' := by
  have high := see_at_high inSysex t t'
  have bound := UInt16.toNat_lt t
  have small : ((Receiver.at inSysex t).see t').high.toNat < 64 := by
    rw [high]
    split <;> omega
  rw [advances_iff, ← UInt16.toNat_inj, rebuilt_toNat small, wrapped_toNat, high]
  split <;> omega

/-- A clock that advances by at most 127 ms stands at the new timestamp. -/
theorem see_at {t t' : UInt16} (inSysex : Bool) (h : Advances t t') :
    (Receiver.at inSysex t).see t' = Receiver.at inSysex t' := by
  have high := see_at_high inSysex t t'
  have bound := UInt16.toNat_lt t
  rw [advances_iff] at h
  have same : ((Receiver.at inSysex t).see t').high = timestampHigh t' := by
    rw [← UInt8.toNat_inj, timestampHigh_toNat, high]
    split <;> omega
  exact Receiver.ext rfl rfl same

/-- Inside a sysex message a clock rebuilds the timestamps with its own high bits. -/
theorem rebuilt_inside_iff (t t' : UInt16) :
    timestampMs (timestampHigh t) (timestampByte t') = wrapped t' ↔
      timestampHigh t' = timestampHigh t := by
  have small : (timestampHigh t).toNat < 64 := by
    rw [timestampHigh_toNat]
    omega
  rw [← UInt16.toNat_inj, ← UInt8.toNat_inj, rebuilt_toNat small, wrapped_toNat,
    timestampHigh_toNat, timestampHigh_toNat]
  omega

theorem see_start (inSysex : Bool) (t : UInt16) :
    (Receiver.start inSysex t).see t = Receiver.at inSysex t := by
  have notLower : ¬ timestampByte t < 0 := by simp
  refine Receiver.ext rfl rfl ?_
  change (if timestampByte t < 0 then (timestampHigh t + 1) % 0x40 else timestampHigh t) = _
  exact if_neg notLower

/-- The first event of a packet is reported as by a clock that stands at its timestamp. -/
theorem reports_start {t : UInt16} {e : Event} (he : time? e = some t) (es : List Event) :
    (Receiver.start false t).reports (e :: es) = (Receiver.at false t).reports (e :: es) := by
  have track : (Receiver.start false t).track e = (Receiver.at false t).track e := by
    have seen : (Receiver.at false t).see t = Receiver.at false t := see_at false (.refl t)
    simp only [Receiver.track, he]
    exact (see_start false t).trans seen.symm
  simp only [Receiver.reports, Receiver.report, Receiver.next, track]
  rfl

/-- The timestamps of the messages and sysex starts outside sysex messages. -/
def outsideTimes : Bool → List Event → List UInt16
  | _, [] => []
  | inSysex, e :: es =>
      (if inSysex then [] else (time? e).toList) ++ outsideTimes (openBehind inSysex e) es

/-- A clock rebuilds all timestamps outside sysex messages if each advances by at most 127 ms. -/
theorem outsideTimes_reports {inSysex : Bool} {t : UInt16} {events : List Event}
    (h : (t :: outsideTimes inSysex events).IsChain Advances) :
    outsideTimes inSysex ((Receiver.at inSysex t).reports events) =
      (outsideTimes inSysex events).map wrapped := by
  induction events generalizing inSysex t with
  | nil => rfl
  | cons e es ih =>
    have behind : openBehind inSysex ((Receiver.at inSysex t).report e) =
        openBehind inSysex e := openBehind_mapTime _ _ _
    simp only [Receiver.reports, outsideTimes, behind, List.map_append]
    simp only [outsideTimes] at h
    cases inSysex with
    | true =>
      have next : (Receiver.at true t).next e = Receiver.at (openBehind true e) t := rfl
      rw [next, ih (by simpa using h)]
      rfl
    | false =>
      cases htime : time? e with
      | none =>
        have next : (Receiver.at false t).next e = Receiver.at (openBehind false e) t := by
          simp [Receiver.next, Receiver.track, htime, Receiver.at]
        rw [next, ih (by simpa [htime] using h), Receiver.report, time?_mapTime, htime]
        rfl
      | some t' =>
        have chain : Advances t t' ∧ (t' :: outsideTimes (openBehind false e) es).IsChain
            Advances := by
          simpa [htime] using h
        have seen : (Receiver.at false t).track e = Receiver.at false t' := by
          simp only [Receiver.track, htime]
          exact see_at false chain.1
        have next : (Receiver.at false t).next e = Receiver.at (openBehind false e) t' := by
          rw [Receiver.next, seen]
          rfl
        have rebuilt : timestampMs (timestampHigh t') (timestampByte t') = wrapped t' :=
          (rebuilt_inside_iff t' t').mpr rfl
        rw [next, ih chain.2, Receiver.report, time?_mapTime, htime, seen]
        exact congrArg (fun time => [time] ++ _) rebuilt

/-- Where an event stands in its packet: behind the header, behind a message, inside a sysex
message or behind one. Each place but the first remembers the timestamp of the clock there. -/
inductive Place
  | first
  | behind (last : UInt16)
  | inside (start : UInt16)
  | after (start : UInt16)
  deriving DecidableEq

def Place.next : Place → Event → Place
  | .inside start, .sysexEnd _ => .after start
  | .inside start, _ => .inside start
  | _, .midiMessage _ timestamp => .behind timestamp
  | _, .sysexStart timestamp => .inside timestamp
  | _, .sysexEnd timestamp => .behind timestamp
  | place, .sysexData _ => place

/-- The events of a packet, each with its place. -/
def placed (place : Place) : List Event → List (Place × Event)
  | [] => []
  | e :: es => (place, e) :: placed (place.next e) es

/-- The event is inside a sysex message, its end, or the first one behind it. -/
def Place.watched : Place → Bool
  | .inside _ => true
  | .after _ => true
  | _ => false

/-- Messages in a row advance by at most 127 ms. Nothing is said about sysex messages. -/
def Place.Paced : Place → UInt16 → Prop
  | .behind last, timestamp => Advances last timestamp
  | _, _ => True

/-- No wrap is lost in a sysex message: the timestamps inside have the high bits of its start, and
the first one behind it is at most 127 ms later than the start. -/
def Place.Kept : Place → UInt16 → Prop
  | .inside start, timestamp => timestampHigh timestamp = timestampHigh start
  | .after start, timestamp => Advances start timestamp
  | _, _ => True

instance : ∀ (place : Place) (timestamp : UInt16), Decidable (place.Paced timestamp)
  | .behind last, timestamp => inferInstanceAs (Decidable (Advances last timestamp))
  | .first, _ => inferInstanceAs (Decidable True)
  | .inside _, _ => inferInstanceAs (Decidable True)
  | .after _, _ => inferInstanceAs (Decidable True)

instance : ∀ (place : Place) (timestamp : UInt16), Decidable (place.Kept timestamp)
  | .inside start, timestamp =>
      inferInstanceAs (Decidable (timestampHigh timestamp = timestampHigh start))
  | .after start, timestamp => inferInstanceAs (Decidable (Advances start timestamp))
  | .first, _ => inferInstanceAs (Decidable True)
  | .behind _, _ => inferInstanceAs (Decidable True)

/-- The property `P` of places and timestamps holds throughout a packet. -/
def Throughout (P : Place → UInt16 → Prop) (events : List Event) : Prop :=
  ∀ p ∈ placed .first events, ∀ timestamp ∈ time? p.2, P p.1 timestamp

instance (P : Place → UInt16 → Prop) [∀ place timestamp, Decidable (P place timestamp)] :
    DecidablePred (Throughout P) :=
  fun events =>
    @List.decidableBAll (Place × Event) (fun p => ∀ timestamp ∈ time? p.2, P p.1 timestamp)
      (fun p => @Option.decidableForallMem _ (P p.1) _ (time? p.2)) (placed .first events)

/-- The events in and directly behind sysex messages are reported with their timestamps. -/
def SysexTimesReported (events reported : List Event) : Prop :=
  List.Forall₂ (fun p r => p.1.watched = true → time? r = (time? p.2).map wrapped)
    (placed .first events) reported

/-- The receiver at a place. -/
def Place.Stands : Place → Receiver → Prop
  | .first, _ => False
  | .behind last, r => r = Receiver.at false last
  | .inside start, r => r = Receiver.at true start
  | .after start, r => r = Receiver.at false start

private theorem report_outside (t : UInt16) {e : Event} {timestamp : UInt16}
    (he : time? e = some timestamp) :
    time? ((Receiver.at false t).report e) = some (wrapped timestamp) ↔ Advances t timestamp := by
  have track : (Receiver.at false t).track e = (Receiver.at false t).see timestamp := by
    simp [Receiver.track, he, Receiver.at]
  rw [Receiver.report, time?_mapTime, he, track, ← rebuilt_iff false]
  simp

private theorem next_outside {t : UInt16} {e : Event} {timestamp : UInt16}
    (he : time? e = some timestamp) (h : Advances t timestamp) :
    (Receiver.at false t).next e = Receiver.at (openBehind false e) timestamp := by
  have track : (Receiver.at false t).track e = (Receiver.at false t).see timestamp := by
    simp [Receiver.track, he, Receiver.at]
  rw [Receiver.next, track, see_at false h]
  rfl

/-- An event in or directly behind a sysex message is reported with its timestamp exactly when
the clock keeps it. -/
private theorem report_iff {place : Place} {r : Receiver} (hr : place.Stands r) (e : Event) :
    (place.watched = true → time? (r.report e) = (time? e).map wrapped) ↔
      ∀ timestamp ∈ time? e, place.Kept timestamp := by
  cases htime : time? e with
  | none =>
    have untimed : time? (r.report e) = none := by simp [Receiver.report, htime]
    simp [untimed]
  | some timestamp =>
    simp only [Option.map_some, Option.mem_some_iff, forall_eq']
    cases place with
    | first => exact hr.elim
    | behind last => simp [Place.watched, Place.Kept]
    | inside start =>
      obtain rfl : r = Receiver.at true start := hr
      have reported : time? ((Receiver.at true start).report e) =
          some (timestampMs (timestampHigh start) (timestampByte timestamp)) := by
        rw [Receiver.report, time?_mapTime, htime]
        rfl
      rw [reported]
      simpa [Place.watched, Place.Kept] using rebuilt_inside_iff start timestamp
    | after start =>
      obtain rfl : r = Receiver.at false start := hr
      simpa [Place.watched, Place.Kept] using report_outside start htime

private theorem stands_next {place : Place} {r : Receiver} (hr : place.Stands r) {e : Event}
    (hpaced : ∀ timestamp ∈ time? e, place.Paced timestamp)
    (hkept : ∀ timestamp ∈ time? e, place.Kept timestamp) :
    (place.next e).Stands (r.next e) := by
  cases place with
  | first => exact hr.elim
  | behind last =>
    obtain rfl : r = Receiver.at false last := hr
    cases e with
    | midiMessage bytes timestamp => exact next_outside rfl (hpaced timestamp rfl)
    | sysexStart timestamp => exact next_outside rfl (hpaced timestamp rfl)
    | sysexData dataByte => rfl
    | sysexEnd timestamp => exact next_outside rfl (hpaced timestamp rfl)
  | inside start =>
    obtain rfl : r = Receiver.at true start := hr
    cases e <;> rfl
  | after start =>
    obtain rfl : r = Receiver.at false start := hr
    cases e with
    | midiMessage bytes timestamp => exact next_outside rfl (hkept timestamp rfl)
    | sysexStart timestamp => exact next_outside rfl (hkept timestamp rfl)
    | sysexData dataByte => rfl
    | sysexEnd timestamp => exact next_outside rfl (hkept timestamp rfl)

private theorem forall_placed_cons {P : Place → UInt16 → Prop} {place : Place} {e : Event}
    {es : List Event} :
    (∀ p ∈ placed place (e :: es), ∀ timestamp ∈ time? p.2, P p.1 timestamp) ↔
      (∀ timestamp ∈ time? e, P place timestamp) ∧
        ∀ p ∈ placed (place.next e) es, ∀ timestamp ∈ time? p.2, P p.1 timestamp :=
  List.forall_mem_cons

private theorem reports_iff_kept {place : Place} {r : Receiver} (hr : place.Stands r)
    {events : List Event}
    (hpaced : ∀ p ∈ placed place events, ∀ timestamp ∈ time? p.2, p.1.Paced timestamp) :
    List.Forall₂ (fun p report => p.1.watched = true → time? report = (time? p.2).map wrapped)
        (placed place events) (r.reports events) ↔
      ∀ p ∈ placed place events, ∀ timestamp ∈ time? p.2, p.1.Kept timestamp := by
  induction events generalizing place r with
  | nil => simp [placed, Receiver.reports]
  | cons e es ih =>
    obtain ⟨pace, paces⟩ := forall_placed_cons.mp hpaced
    rw [forall_placed_cons]
    refine List.forall₂_cons.trans ((and_congr_left' (report_iff hr e)).trans ?_)
    exact and_congr_right fun kept => ih (stands_next hr pace kept) paces

/-- The events in and behind sysex messages are reported with their timestamps exactly when no
wrap falls into a sysex message. -/
theorem sysexTimesReported_iff {t : UInt16} {events : List Event}
    (hfirst : ∀ e ∈ events.head?, time? e = some t) (hpaced : Throughout Place.Paced events) :
    SysexTimesReported events ((Receiver.start false t).reports events) ↔
      Throughout Place.Kept events := by
  cases events with
  | nil => simp [SysexTimesReported, Throughout, placed, Receiver.reports]
  | cons e es =>
    have he : time? e = some t := hfirst e rfl
    have next : Place.next .first e = Place.next (.behind t) e := by
      cases e with
      | sysexData dataByte => cases he
      | _ => rfl
    obtain ⟨_, paces⟩ := forall_placed_cons.mp hpaced
    have stands : (Place.next .first e).Stands ((Receiver.at false t).next e) := by
      rw [next]
      refine @stands_next (.behind t) _ rfl e ?_ ?_
      · rintro timestamp htimestamp
        obtain rfl := Option.some.inj (he.symm.trans htimestamp)
        exact Advances.refl t
      · exact fun _ _ => trivial
    rw [SysexTimesReported, reports_start he, Throughout, forall_placed_cons]
    refine List.forall₂_cons.trans (and_congr ?_ (reports_iff_kept stands paces))
    exact ⟨fun _ _ _ => trivial, fun _ h => by cases h⟩

end BleMidi.Packet.Timestamps
