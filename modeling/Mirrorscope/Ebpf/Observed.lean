import Mirrorscope.Ebpf.Collect
import Mirrorscope.Replay.Recording

/-! # What an eBPF trace tells

A recording through eBPF, read back from its file: one record for each event that the kernel
side delivered, in order, with what that event had seen. The number of an exit is the one of the
last event of its thread, where that is an entry.

A record tells an event by what came before it:
* `openNr`: the number of the call that a thread is in. `Tells`: the record of an event after
  others.
* `Observes`: the records of a list of events.
* `Broke`: a recording that ended with a failed append, and what it has left in the file.
* `observed_trace_loads`: the reader on the file, however the recording ended.
-/

namespace Mirrorscope.Ebpf

open ByteIO (ByteVec Delivers Read Write delivers_list)
open Capture (SyscallEnter SyscallExit)
open Replay (Loads Written traceIsMultithreaded)
open Trace (Cmdline Event Record TraceError TraceWriter bodies frameStart storedRecords)

/-! ## Records of events -/

/-- The number that an exit of the thread is written with, after these events. -/
def openNr (tid : UInt32) (before : List RawSyscallEvent) : UInt64 :=
  match lastOf tid before with
  | some last => if last.kind = kindEnter then last.nr else 0
  | none => 0

/-- What the event of the trace says of a raw event that came after others. -/
structure Tells (before : List RawSyscallEvent) (raw : RawSyscallEvent) (event : Event) : Prop where
  tid : event.tid = some raw.tid
  timestamp : event.timestampNs = raw.timestampNs
  entered : raw.kind = kindEnter → event.kind = .syscallEnter ∧
    SyscallEnter.decode event.payload = .ok { nr := raw.nr, args := raw.args }
  exited : raw.kind = kindExit → event.kind = .syscallExit ∧
    SyscallExit.decode event.payload =
      .ok { nr := openNr raw.tid before, ret := raw.ret, data := [] }

theorem pendingAfter_openNr {before : List RawSyscallEvent} (h : Syscalls before) (tid : UInt32) :
    ((pendingAfter ∅ before)[tid]?).getD 0 = openNr tid before := by
  rw [pendingAfter_get h, openNr]
  cases lastOf tid before with
  | none => simp
  | some last =>
    by_cases hkind : last.kind = kindEnter
    · simp [hkind]
    · simp [hkind]

/-- The record of an event, after the ones before it. -/
theorem tells_of_eventOf {before : List RawSyscallEvent} {raw : RawSyscallEvent}
    (hbefore : Syscalls before) (hkind : raw.kind = kindEnter ∨ raw.kind = kindExit) {event : Event}
    {p : Pending} (h : eventOf raw (pendingAfter ∅ before) = some (event, p)) :
    Tells before raw event := by
  have hne : kindEnter ≠ kindExit := by decide
  rcases hkind with hkind | hkind
  · rw [eventOf_enter hkind] at h
    obtain ⟨rfl, -⟩ := Prod.mk.inj (Option.some.inj h)
    refine ⟨rfl, rfl, fun _ => ⟨rfl, SyscallEnter.decode_encode _⟩, fun hexit => ?_⟩
    exact absurd (hkind.symm.trans hexit) hne
  · rw [eventOf_exit hkind, pendingAfter_openNr hbefore] at h
    obtain ⟨rfl, -⟩ := Prod.mk.inj (Option.some.inj h)
    refine ⟨rfl, rfl, fun henter => ?_, fun _ => ⟨rfl, SyscallExit.decode_encode (by simp)⟩⟩
    exact absurd (henter.symm.trans hkind) hne

/-- The records are of the events, from the first one on: numbered in their order, and each
telling of its event. -/
def Observes (raws : List RawSyscallEvent) (records : List Record) : Prop :=
  ∀ i record, records[i]? = some record → ∃ raw, raws[i]? = some raw ∧
    record.seq.toNat = i ∧ Tells (raws.take i) raw record.event

/-- The events of the trace are the records of the raw events. -/
theorem tells_recordsFrom {raws : List RawSyscallEvent} (h : Syscalls raws) {i : Nat}
    {event : Event} (hevent : (recordsFrom ∅ raws)[i]? = some event) :
    ∃ raw, raws[i]? = some raw ∧ Tells (raws.take i) raw event := by
  obtain ⟨hi, rfl⟩ := List.getElem?_eq_some_iff.mp hevent
  have hlength := hi
  rw [length_recordsFrom h] at hlength
  have hraws : raws = raws.take i ++ raws[i] :: raws.drop (i + 1) := by
    rw [List.getElem_cons_drop, List.take_append_drop]
  have hbefore : Syscalls (raws.take i) := fun raw hraw => h raw (List.mem_of_mem_take hraw)
  have hkind := h raws[i] (List.getElem_mem hlength)
  obtain ⟨⟨event, p⟩, hof⟩ :=
    Option.isSome_iff_exists.mp (eventOf_isSome (p := pendingAfter ∅ (raws.take i)) hkind)
  have hsplit : recordsFrom ∅ raws =
      recordsFrom ∅ (raws.take i) ++ event :: recordsFrom p (raws.drop (i + 1)) := by
    conv_lhs => rw [hraws]
    rw [recordsFrom_append]
    simp only [recordsFrom, hof]
  have hfirst : (recordsFrom ∅ (raws.take i)).length = i := by
    rw [length_recordsFrom hbefore, List.length_take]
    omega
  refine ⟨raws[i], List.getElem?_eq_getElem hlength, ?_⟩
  have hget : (recordsFrom ∅ raws)[i]? = some event := by
    rw [hsplit, List.getElem?_append_right (by omega), hfirst, Nat.sub_self]
    rfl
  rw [List.getElem?_eq_getElem hi, Option.some.injEq] at hget
  rw [hget]
  exact tells_of_eventOf hbefore hkind hof

/-! ## The file -/

/-- An entry or an exit of a thread is stored as it is. -/
theorem stored_eq {event : Event} {tid : UInt32} (htid : event.tid = some tid)
    (hkind : event.kind = .syscallEnter ∨ event.kind = .syscallExit) : event.stored = event := by
  obtain ⟨kind, timestamp, _, payload⟩ := event
  rcases htid with rfl
  rcases hkind with hkind | hkind
  · rcases hkind with rfl
    rfl
  · rcases hkind with rfl
    rfl

theorem getElem?_storedRecords {events : List Event} {i : Nat} {record : Record}
    (h : (storedRecords 0 events)[i]? = some record) :
    ∃ event, events[i]? = some event ∧
      record = { seq := UInt64.ofNat i, event := event.stored } := by
  rw [storedRecords, List.getElem?_map, List.getElem?_zipIdx] at h
  obtain ⟨_, hpair, rfl⟩ := Option.map_eq_some_iff.mp h
  obtain ⟨event, hevent, rfl⟩ := Option.map_eq_some_iff.mp hpair
  exact ⟨event, hevent, by simp⟩

/-- The records that a reader gets of the events' trace tell of the events. -/
theorem observes_storedRecords {raws : List RawSyscallEvent} (h : Syscalls raws)
    {events : List Event}
    (hevents : events <+: recordsFrom ∅ raws) (hcount : events.length < 2 ^ 64) :
    Observes raws (storedRecords 0 events) ∧
      traceIsMultithreaded (storedRecords 0 events) = false := by
  have htells {i : Nat} {record : Record} (hrecord : (storedRecords 0 events)[i]? = some record) :
      ∃ raw, raws[i]? = some raw ∧ record.seq.toNat = i ∧
        (raw.kind = kindEnter ∨ raw.kind = kindExit) ∧ Tells (raws.take i) raw record.event := by
    obtain ⟨event, hevent, rfl⟩ := getElem?_storedRecords hrecord
    have hi : i < events.length := (List.getElem?_eq_some_iff.mp hevent).1
    have hwhole : (recordsFrom ∅ raws)[i]? = some event := by
      obtain ⟨rest, hrest⟩ := hevents
      rw [← hrest, List.getElem?_append_left hi]
      exact hevent
    obtain ⟨raw, hraw, htell⟩ := tells_recordsFrom h hwhole
    have hkind := h raw (List.mem_of_getElem? hraw)
    have hstored : event.stored = event := by
      refine stored_eq htell.tid ?_
      rcases hkind with hkind | hkind
      · exact .inl (htell.entered hkind).1
      · exact .inr (htell.exited hkind).1
    refine ⟨raw, hraw, ?_, hkind, ?_⟩
    · exact Nat.mod_eq_of_lt (by omega)
    · rw [hstored]
      exact htell
  constructor
  · intro i record hrecord
    obtain ⟨raw, hraw, hseq, -, htell⟩ := htells hrecord
    exact ⟨raw, hraw, hseq, htell⟩
  · rw [traceIsMultithreaded, List.any_eq_false]
    intro record hrecord
    obtain ⟨i, hi⟩ := List.mem_iff_getElem?.mp hrecord
    obtain ⟨raw, -, -, hkind, htell⟩ := htells hi
    rcases hkind with hkind | hkind
    · simp [(htell.entered hkind).1]
    · simp [(htell.exited hkind).1]

/-- A record of an event is short. -/
theorem payload_recordsFrom {raws : List RawSyscallEvent} (h : Syscalls raws) {p : Pending}
    {event : Event} (hevent : event ∈ recordsFrom p raws) : event.payload.length ≤ 56 := by
  obtain ⟨pre, post, hsplit⟩ := List.append_of_mem hevent
  obtain ⟨xs, v, ys, p', rfl, -, hv, -⟩ := recordsFrom_split h hsplit
  rcases h v (by simp) with hkind | hkind
  · rw [eventOf_enter hkind] at hv
    obtain ⟨rfl, -⟩ := Prod.mk.inj (Option.some.inj hv)
    simp [enterEvent, Event.newWithTid, SyscallEnter.encode, Capture.length_encodeWords]
  · rw [eventOf_exit hkind] at hv
    obtain ⟨rfl, -⟩ := Prod.mk.inj (Option.some.inj hv)
    simp [exitEvent, Event.newWithTid, SyscallExit.encode]

section Files

variable {W : Type} [Write W] (crc32 : Bytes → UInt32)

/-- The recorder counts what it has written. -/
theorem eventsRecorded_drainUntilExit {polls : List Poll} {items : List Bytes}
    {writer : TraceWriter W} {outcome : Capture.RecordOutcome}
    (h : (drainUntilExit crc32 polls items writer).2 = some (.ok outcome)) :
    outcome.eventsRecorded = (drainUntilExit crc32 polls items writer).1.length := by
  unfold drainUntilExit at h ⊢
  rcases hpoll : pollUntilExit crc32 polls items writer ∅ with ⟨events, result⟩
  rw [hpoll] at h
  match result with
  | none => cases h
  | some (.error e) => cases h
  | some (.ok (items', writer', p', code)) =>
    rcases hdrain : drainReady crc32 items' writer' p' with ⟨more, result'⟩
    simp only [hdrain] at h ⊢
    cases result' with
    | error e => cases h
    | ok _ =>
      rcases Except.ok.inj (Option.some.inj h) with rfl
      rfl

/-! ### An append that fails -/

/-- The recording breaks off at an append, of the record after those that were written. -/
def Broke (writer : TraceWriter W) (p : Pending) (items : List Bytes) (events : List Event)
    (e : TraceError) : Prop :=
  ∃ writer' event, writer.appendAll crc32 events = .ok writer' ∧
    events ++ [event] <+: recordsFrom p (accepted items) ∧
    writer'.append crc32 event = .error e

variable {crc32} in
/-- The events that were appended before the failure come first. -/
theorem Broke.after {writer writer' : TraceWriter W} {p p' : Pending} {items items' : List Bytes}
    {events more : List Event} {e : TraceError} (hdrained : Drained p items events items' p')
    (happend : writer.appendAll crc32 events = .ok writer')
    (h : Broke crc32 writer' p' items' more e) : Broke crc32 writer p items (events ++ more) e := by
  obtain ⟨last, event, hmore, hprefix, hfails⟩ := h
  refine ⟨last, event, ?_, ?_, hfails⟩
  · rw [Trace.appendAll_append crc32 happend]
    exact hmore
  · rw [List.append_assoc]
    exact hdrained.append_prefix hprefix

/-- The ring buffer is drained up to the event that could not be appended. -/
theorem drainReady_broke {items : List Bytes} {writer : TraceWriter W} {p : Pending}
    {e : TraceError} (h : (drainReady crc32 items writer p).2 = .error e) :
    Broke crc32 writer p items (drainReady crc32 items writer p).1 e := by
  induction items generalizing writer p with
  | nil => cases h
  | cons item items ih =>
    cases hraw : RawSyscallEvent.decode item with
    | none =>
      have hskip : accepted (item :: items) = accepted items := by simp [accepted, hraw]
      simp only [drainReady, hraw] at h ⊢
      simpa only [Broke, hskip] using ih h
    | some raw =>
      by_cases hkind : raw.kind = kindEnter ∨ raw.kind = kindExit
      · obtain ⟨⟨event, p'⟩, hevent⟩ := Option.isSome_iff_exists.mp (eventOf_isSome (p := p) hkind)
        have haccepted : accepted (item :: items) = raw :: accepted items := by
          simp [accepted, hraw, hkind]
        cases happend : writer.append crc32 event with
        | error e' =>
          -- this is the append that fails
          simp only [drainReady, hraw, hevent, happend, Except.error.injEq] at h ⊢
          refine ⟨writer, event, rfl, ?_, h ▸ happend⟩
          simp [haccepted, recordsFrom, hevent]
        | ok written =>
          simp only [drainReady, hraw, hevent, happend] at h ⊢
          obtain ⟨last, lost, hmore, hprefix, hfails⟩ := ih h
          refine ⟨last, lost, ?_, ?_, hfails⟩
          · simpa only [TraceWriter.appendAll, happend, bind, Except.bind] using hmore
          · simpa [haccepted, recordsFrom, hevent] using hprefix
      · have hskip : accepted (item :: items) = accepted items := by
          simp [accepted, hraw, hkind]
        simp only [drainReady, hraw, eventOf_none hkind] at h ⊢
        simpa only [Broke, hskip] using ih h

theorem pollUntilExit_broke {polls : List Poll} {items : List Bytes} {writer : TraceWriter W}
    {p : Pending} {e : TraceError}
    (h : (pollUntilExit crc32 polls items writer p).2 = some (.error (.trace e))) :
    Broke crc32 writer p items (pollUntilExit crc32 polls items writer p).1 e := by
  induction polls generalizing items writer p with
  | nil => cases h
  | cons poll polls ih =>
    have hsplit : items = items.take poll.ready ++ items.drop poll.ready :=
      (List.take_append_drop _ _).symm
    obtain ⟨-, hall⟩ := drainReady_records crc32 (items.take poll.ready) writer p
    obtain ⟨writer', happend, hwriter⟩ :=
      drainReady_appended crc32 (items.take poll.ready) writer p
    have hbroke (e : TraceError)
        (herror : (drainReady crc32 (items.take poll.ready) writer p).2 = .error e) :=
      drainReady_broke crc32 herror
    rcases hdrain : drainReady crc32 (items.take poll.ready) writer p with ⟨events, result⟩
    rw [hdrain] at hall happend hwriter hbroke
    cases result with
    | error e' =>
      simp only [pollUntilExit, hdrain, Option.some.injEq, Except.error.injEq,
        EbpfCaptureError.trace.injEq] at h ⊢
      obtain ⟨last, lost, hmore, hprefix, hfails⟩ := hbroke e (by rw [h])
      refine ⟨last, lost, hmore, ?_, hfails⟩
      rw [hsplit, accepted_append, recordsFrom_append]
      exact hprefix.trans (List.prefix_append _ _)
    | ok after =>
      obtain rfl := hwriter after rfl
      have hround : Drained p items events (items.drop poll.ready) after.2 := by
        obtain ⟨drained, hdrained, hevents, hpending⟩ := hall after rfl
        rw [List.append_nil] at hdrained
        exact ⟨drained, hdrained ▸ hsplit, hevents, hpending⟩
      simp only [pollUntilExit, hdrain] at h ⊢
      cases hstatus : poll.status with
      | error e' =>
        rw [hstatus] at h
        cases h
      | ok status =>
        rw [hstatus] at h
        cases status with
        | exited pid code => cases h
        | signaled pid sig core => cases h
        | _ => exact (ih h).after hround happend

/-- The last drain, after the child has exited. -/
theorem drainUntilExit_broke {polls : List Poll} {items : List Bytes} {writer : TraceWriter W}
    {e : TraceError}
    (h : (drainUntilExit crc32 polls items writer).2 = some (.error (.trace e))) :
    Broke crc32 writer ∅ items (drainUntilExit crc32 polls items writer).1 e := by
  obtain ⟨-, hall⟩ := pollUntilExit_records crc32 polls items writer ∅
  obtain ⟨writer', happend, hwriter⟩ := pollUntilExit_appended crc32 polls items writer ∅
  have hbroke (herror : (pollUntilExit crc32 polls items writer ∅).2 = some (.error (.trace e))) :=
    pollUntilExit_broke crc32 herror
  rcases hpoll : pollUntilExit crc32 polls items writer ∅ with ⟨events, result⟩
  rw [hpoll] at hall happend hwriter hbroke
  match result with
  | none =>
    simp only [drainUntilExit, hpoll] at h
    cases h
  | some (.error e') =>
    simp only [drainUntilExit, hpoll, Option.some.injEq, Except.error.injEq] at h ⊢
    exact hbroke (by rw [h])
  | some (.ok (items', after, p', code)) =>
    obtain rfl := hwriter _ rfl
    have hlast (herror : (drainReady crc32 items' after p').2 = .error e) :=
      drainReady_broke crc32 herror
    rcases hdrain : drainReady crc32 items' after p' with ⟨more, result'⟩
    rw [hdrain] at hlast
    simp only [drainUntilExit, hpoll, hdrain] at h ⊢
    cases result' with
    | error e' =>
      simp only [Option.some.injEq, Except.error.injEq, EbpfCaptureError.trace.injEq] at h
      exact (hlast (by rw [h])).after (hall items' after p' code rfl) happend
    | ok _ => cases h

/-! ### Whole recordings -/

/-- The sink that a recording leaves: behind what was appended, a failed append has left the front
of its frame. -/
def left (writer : TraceWriter W) : (lost : Option Event) → W
  | none => writer.inner
  | some event => writer.torn crc32 event

/-- The event whose append has failed, if it was an append that ended the recording. -/
theorem exists_lost {polls : List Poll} {items : List Bytes} {writer writer' : TraceWriter W}
    (happend : writer.appendAll crc32 (drainUntilExit crc32 polls items writer).1 = .ok writer') :
    ∃ lost : Option Event,
      (lost = none → ∀ e, (drainUntilExit crc32 polls items writer).2 ≠
        some (.error (.trace e))) ∧
      (∀ event ∈ lost, ∃ e, writer'.append crc32 event = .error e ∧
        (drainUntilExit crc32 polls items writer).2 = some (.error (.trace e))) ∧
      (drainUntilExit crc32 polls items writer).1 ++ lost.toList <+:
        recordsFrom ∅ (accepted items) := by
  by_cases hfails : ∃ e, (drainUntilExit crc32 polls items writer).2 = some (.error (.trace e))
  · obtain ⟨e, he⟩ := hfails
    obtain ⟨last, event, hlast, hprefix, herror⟩ := drainUntilExit_broke crc32 he
    rcases Except.ok.inj (hlast.symm.trans happend) with rfl
    refine ⟨some event, ?_, ?_, hprefix⟩
    · intro hnone
      cases hnone
    · intro event' hevent
      rcases Option.mem_some_iff.mp hevent with rfl
      exact ⟨e, herror, he⟩
  · refine ⟨none, fun _ e he => hfails ⟨e, he⟩, ?_, ?_⟩
    · intro event hevent
      cases hevent
    · rw [Option.toList_none, List.append_nil]
      exact (drainUntilExit_records crc32 polls items writer).1

/-- What is left is the front of a trace of the events that were appended and the one that
failed. -/
theorem left_written {firings : List Firing} {file : W} (hfile : Write.written file = [])
    {cmdline : Cmdline} {events : List Event} {t t' : TraceWriter W}
    (hstart : TraceWriter.start file (some cmdline) = .ok t)
    (happend : t.appendAll crc32 events = .ok t') {lost : Option Event}
    (hfails : ∀ event ∈ lost, ∃ e, t'.append crc32 event = .error e)
    (hevents : events ++ lost.toList <+: recordsFrom ∅ (delivered firings))
    (hheader : Trace.baseHeaderLen + (Trace.cmdlineBytes (some cmdline)).length < 65536) :
    ∃ bytes, Written crc32 cmdline (events ++ lost.toList) bytes ∧
      Write.written (left crc32 t' lost) <+: bytes := by
  have hsmall : ∀ event ∈ events ++ lost.toList,
      event.payload.length ≤ Trace.maxBodyLen - Trace.bodyPrefixLenV3 := by
    intro event hevent
    have hlen := payload_recordsFrom (syscalls_delivered firings) (hevents.subset hevent)
    exact hlen.trans (by decide)
  have hcount := Trace.header_and_events_lt hfile hstart happend
  have hwritten := Trace.written_trace hfile hstart happend
  cases lost with
  | none =>
    refine ⟨Write.written t'.inner, ?_, List.prefix_rfl⟩
    rw [Option.toList_none, List.append_nil] at hsmall ⊢
    exact Replay.written_of_append hfile hstart happend hheader hsmall
  | some event =>
    obtain ⟨e, he⟩ := hfails event rfl
    obtain ⟨part, hpart, htorn⟩ := Trace.torn_written he
    rw [Option.toList_some] at hsmall ⊢
    refine ⟨Write.written t'.inner ++ Trace.frame crc32 (Trace.encodeBody t'.nextSeq event),
      { bytes := ?_, header := hheader, payloads := hsmall, count := ?_ }, ?_⟩
    · -- the next sequence number is the number of events so far
      have hseq : t'.nextSeq = UInt64.ofNat events.length := by
        have hzero := (Trace.start_written hstart).2
        rw [Trace.appendAll_nextSeq happend, hzero, UInt64.zero_add]
      rw [hwritten, hseq, Trace.bodies_append, List.map_append, List.flatten_append,
        List.append_assoc]
      simp [Trace.bodies]
    · rw [List.length_append, List.length_singleton]
      simp only [Trace.baseHeaderLen] at hcount
      omega
    · rw [show left crc32 t' (some event) = t'.torn crc32 event from rfl, htorn]
      exact (List.prefix_append_right_inj _).mpr hpart

/-- The front of a trace of delivered events, however it is read: it is refused unless it ends
where a frame starts. -/
theorem front_loads {firings : List Firing} {cmdline : Cmdline} {events : List Event}
    {bytes front : Bytes} (hwritten : Written crc32 cmdline events bytes)
    (hevents : events <+: recordsFrom ∅ (delivered firings)) (hfront : front <+: bytes) {n : Nat}
    (hn : n ≤ front.length) {R : Type} [Read R] {source : R}
    (hsource : Delivers source (front.take n)) :
    (∀ k, n = frameStart crc32 (some cmdline) events k →
      ∃ records, Loads crc32 source (.ok (cmdline, records)) ∧
        records.length = min k events.length ∧ Observes (delivered firings) records ∧
        traceIsMultithreaded records = false) ∧
    ((∀ k ≤ events.length, n ≠ frameStart crc32 (some cmdline) events k) →
      ∃ e, Loads crc32 source (.error (.trace e))) := by
  have htake : front.take n = bytes.take n := by
    rw [List.prefix_iff_eq_take.mp hfront, List.take_take, Nat.min_eq_left hn]
  rw [htake] at hsource
  constructor
  · intro k hk
    have hprefix : events.take k <+: recordsFrom ∅ (delivered firings) :=
      (List.take_prefix k _).trans hevents
    have hcount : (events.take k).length < 2 ^ 64 := by
      rw [List.length_take]
      exact Nat.lt_of_le_of_lt (Nat.min_le_right _ _) hwritten.count
    obtain ⟨hobserves, hsingle⟩ :=
      observes_storedRecords (syscalls_delivered firings) hprefix hcount
    refine ⟨_, (hwritten.loads_prefix hk).delivered hsource, ?_, hobserves, hsingle⟩
    rw [storedRecords, List.length_map, List.length_zipIdx, List.length_take]
  · intro hcut
    obtain ⟨e, hloads⟩ := hwritten.loads_torn (hn.trans hfront.length_le) hcut
    exact ⟨e, hloads.delivered hsource⟩

/-- Whatever the kernel side saw and delivered, in whatever rounds it was drained, and however
the recording ended: what it leaves is a trace of the events that were appended, and behind them
at most the frame of the one whose append failed. Read in any pieces, and cut anywhere, it is
refused unless it ends where a frame starts; then it loads with the command line, its records
tell of what was delivered, and it is no trace of several threads. A recording that ends well has
written all. -/
theorem observed_trace_loads (firings : List Firing) (polls : List Poll) {file : W}
    (hfile : Write.written file = []) {program : String} {args : List String} {t : TraceWriter W}
    (hstart : TraceWriter.createWithCmdline file program args = .ok t)
    (hheader : Trace.headerSize program args < 65536) :
    let run := drainUntilExit crc32 polls (ring firings) t
    ∃ (t' : TraceWriter W) (lost : Option Event), t.appendAll crc32 run.1 = .ok t' ∧
      (lost = none → (∀ e, run.2 ≠ some (.error (.trace e))) ∧
        (Write.written (left crc32 t' lost)).length =
          frameStart crc32 (some ⟨program, args⟩) run.1 run.1.length) ∧
      (∀ event ∈ lost, ∃ e, t'.append crc32 event = .error e ∧
        run.2 = some (.error (.trace e))) ∧
      (∀ n ≤ (Write.written (left crc32 t' lost)).length, ∀ {R : Type} [Read R] {source : R},
        Delivers source ((Write.written (left crc32 t' lost)).take n) →
          (∀ k, n = frameStart crc32 (some ⟨program, args⟩) (run.1 ++ lost.toList) k →
            ∃ records, Loads crc32 source (.ok (⟨program, args⟩, records)) ∧
              records.length = min k (run.1 ++ lost.toList).length ∧
              Observes (delivered firings) records ∧ traceIsMultithreaded records = false) ∧
          ((∀ k ≤ (run.1 ++ lost.toList).length,
              n ≠ frameStart crc32 (some ⟨program, args⟩) (run.1 ++ lost.toList) k) →
            ∃ e, Loads crc32 source (.error (.trace e)))) ∧
      ∀ outcome, run.2 = some (.ok outcome) →
        run.1.length = (delivered firings).length ∧ outcome.eventsRecorded = run.1.length := by
  intro run
  obtain ⟨-, hall⟩ := drainUntilExit_records crc32 polls (ring firings) t
  obtain ⟨t', happend⟩ := drainUntilExit_appended crc32 polls (ring firings) t
  obtain ⟨lost, hnone, hlost, hevents⟩ := exists_lost crc32 happend
  rw [accepted_ring] at hall hevents
  rw [Trace.headerSize_eq] at hheader
  have hstart : TraceWriter.start file (some ⟨program, args⟩) = .ok t := hstart
  obtain ⟨bytes, hwritten, hfront⟩ := left_written crc32 hfile hstart happend
    (fun event hevent => (hlost event hevent).imp fun _ h => h.1) hevents hheader
  refine ⟨t', lost, happend, fun h => ⟨hnone h, ?_⟩, hlost, ?_, ?_⟩
  · rcases h with rfl
    exact (congrArg List.length (Trace.written_trace hfile hstart happend)).trans
      (Trace.length_written crc32 (some ⟨program, args⟩) run.1)
  · intro n hn R _ source hsource
    exact front_loads crc32 hwritten hevents hfront hn hsource
  · intro outcome houtcome
    refine ⟨?_, eventsRecorded_drainUntilExit crc32 houtcome⟩
    rw [show run.1 = recordsFrom ∅ (delivered firings) from hall outcome houtcome,
      length_recordsFrom (syscalls_delivered firings)]

end Files

/-- The exit that no entry was seen of is read back from its trace, and a trace that lacks the
last byte is refused. -/
theorem observed_trace_loads_orphan : ∃ (t t' : TraceWriter ByteVec) (records : List Record),
    TraceWriter.createWithCmdline ByteVec.empty "ls" ["-l"] = .ok t ∧
    t.appendAll Crc32.hash
      (drainUntilExit Crc32.hash [⟨1, .ok (.exited 100 0)⟩] (ring orphanExit) t).1 = .ok t' ∧
    Loads Crc32.hash (Write.written t'.inner) (.ok (⟨"ls", ["-l"]⟩, records)) ∧
    records.length = 1 ∧ Observes (delivered orphanExit) records ∧
    ∃ e, Loads Crc32.hash ((Write.written t'.inner).take ((Write.written t'.inner).length - 1))
      (.error (.trace e)) := by
  obtain ⟨t, hstart, houtcome⟩ : ∃ t : TraceWriter ByteVec,
      TraceWriter.createWithCmdline ByteVec.empty "ls" ["-l"] = .ok t ∧
      (drainUntilExit Crc32.hash [⟨1, .ok (.exited 100 0)⟩] (ring orphanExit) t).2 =
        some (.ok { exitCode := some 0, eventsRecorded := 1, threadsFollowed := 1 }) :=
    ⟨_, rfl, rfl⟩
  obtain ⟨t', lost, happend, hnone, hlost, hloads, hall⟩ :=
    observed_trace_loads Crc32.hash orphanExit [⟨1, .ok (.exited 100 0)⟩] rfl hstart (by decide)
  have hend : lost = none := by
    cases lost with
    | none => rfl
    | some event =>
      obtain ⟨e, -, hfailed⟩ := hlost event rfl
      cases houtcome.symm.trans hfailed
  rcases hend with rfl
  have hfile := (hnone rfl).2
  obtain ⟨event, hevents⟩ := List.length_eq_one_iff.mp (hall _ houtcome).1
  rw [hevents] at hfile
  have hwhole : Write.written (left Crc32.hash t' none) = Write.written t'.inner := rfl
  rw [Option.toList_none, List.append_nil, hevents, hwhole] at hloads
  rw [hwhole] at hfile
  -- the file ends behind the only frame, and that is longer than a byte
  have hshort : frameStart Crc32.hash (some ⟨"ls", ["-l"]⟩) [event] 0 + 1 <
      (Write.written t'.inner).length := by
    rw [hfile]
    simp [frameStart, bodies, Trace.frame]
    omega
  obtain ⟨records, hrecords, hcount, hobserves, -⟩ :=
    (hloads _ (Nat.le_refl _) (delivers_list _)).1 1 hfile
  rw [List.take_length] at hrecords
  obtain ⟨e, he⟩ := (hloads ((Write.written t'.inner).length - 1) (Nat.sub_le _ _)
    (delivers_list _)).2 (by
      intro k hk
      obtain rfl | rfl : k = 0 ∨ k = 1 := by
        rw [List.length_singleton] at hk
        omega
      · omega
      · rw [List.length_singleton] at hfile
        omega)
  exact ⟨t, t', records, hstart, happend, hrecords, hcount, hobserves, e, he⟩

end Mirrorscope.Ebpf
