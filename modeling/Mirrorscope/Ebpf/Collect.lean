import Mirrorscope.Capture.Syscall
import Mirrorscope.Ebpf.Wire
import Mirrorscope.Lib.Crc32
import Mirrorscope.Lib.KeyMap
import Mirrorscope.Trace.Writer

/-! # The eBPF recorder

The kernel side turns syscall entries and exits of the target into raw events, as far
as the filter is configured and the ring buffer has room; the collector drains the
ring in any number of rounds and writes the trace. An exit gets its number from the
last entry of its thread that was collected and not yet answered. `exits_paired_iff`
says for which deliveries every exit of the trace has an entry to go with it: where
an exit has none, the collector writes number 0.
-/

namespace Mirrorscope.Ebpf

open ByteIO (Write ByteVec)
open Capture (RecordOutcome SyscallEnter SyscallExit)
open Linux (Args Errno WaitStatus)
open Trace (Event EventKind TraceError TraceWriter appendAll_append)

/-! ## The kernel side -/

/-- What a tracepoint program finds when it runs. -/
structure Context where
  pidTgid : UInt64
  /-- The second argument: the number at an entry, the result at an exit. -/
  arg : UInt64
  /-- The argument registers, where they can be read. -/
  syscallArgs : Option Args
  ktimeNs : UInt64
  /-- The slot of `TARGET_TGID`, 0 until the filter is configured. -/
  targetTgid : UInt32
  /-- Whether the ring buffer has room for one more event. -/
  room : Bool

/-- The task's thread group and thread, if it belongs to the target. -/
def matchingTarget (ctx : Context) : Option (UInt32 × UInt32) :=
  if ctx.targetTgid = 0 then none
  else
    let tgid := (ctx.pidTgid >>> 32).toUInt32
    if tgid ≠ ctx.targetTgid then none else some (tgid, ctx.pidTgid.toUInt32)

/-- Hand an event to the ring buffer; it is dropped when the buffer is full. -/
def emit (ctx : Context) (event : RawSyscallEvent) : Option RawSyscallEvent :=
  if ctx.room then some event else none

def trySysEnter (ctx : Context) : Option RawSyscallEvent := do
  let (tgid, tid) ← matchingTarget ctx
  let args ← ctx.syscallArgs
  emit ctx
    { kind := kindEnter, tgid, tid, timestampNs := ctx.ktimeNs, nr := ctx.arg, args, ret := 0 }

/-- The number is not known here; the collector fills it in. -/
def trySysExit (ctx : Context) : Option RawSyscallEvent := do
  let (tgid, tid) ← matchingTarget ctx
  emit ctx
    { kind := kindExit, tgid, tid, timestampNs := ctx.ktimeNs, nr := 0,
      args := Vector.replicate 6 0, ret := ctx.arg.toInt64 }

/-- A syscall entry or exit of some task. -/
inductive Firing where
  | sysEnter (ctx : Context)
  | sysExit (ctx : Context)

/-- The event a firing leaves in the ring buffer. -/
def Firing.submitted : Firing → Option RawSyscallEvent
  | sysEnter ctx => trySysEnter ctx
  | sysExit ctx => trySysExit ctx

/-- The events that reach the ring buffer, in order. -/
def delivered (firings : List Firing) : List RawSyscallEvent := firings.filterMap (·.submitted)

/-- The items of the ring buffer. -/
def ring (firings : List Firing) : List Bytes := (delivered firings).map (·.encode)

/-! ## The collector -/

/-- The last unanswered entry's number, by thread. -/
abbrev Pending := KeyMap UInt32 UInt64

def enterEvent (raw : RawSyscallEvent) : Event :=
  Event.newWithTid .syscallEnter raw.timestampNs raw.tid
    (SyscallEnter.encode { nr := raw.nr, args := raw.args })

def exitEvent (raw : RawSyscallEvent) (nr : UInt64) : Event :=
  Event.newWithTid .syscallExit raw.timestampNs raw.tid
    (SyscallExit.encode { nr, ret := raw.ret, data := [] })

/-- The trace event for a raw event, and the table after it; other kinds are skipped. -/
def eventOf (raw : RawSyscallEvent) (pendingNr : Pending) : Option (Event × Pending) :=
  if raw.kind = kindEnter then some (enterEvent raw, pendingNr.insert raw.tid raw.nr)
  else if raw.kind = kindExit then
    let nr := (pendingNr[raw.tid]?).getD 0
    some (exitEvent raw nr, pendingNr.erase raw.tid)
  else none

section Collector

variable {W : Type} [Write W] (crc32 : Bytes → UInt32)

/-- Drain the items that are in the ring buffer: the events that were appended (the
collector counts them), and the writer and the table after them. -/
def drainReady : List Bytes → TraceWriter W → Pending →
    List Event × Except TraceError (TraceWriter W × Pending)
  | [], writer, pendingNr => ([], .ok (writer, pendingNr))
  | item :: items, writer, pendingNr =>
    match RawSyscallEvent.decode item with
    -- a short or corrupt item is skipped
    | none => drainReady items writer pendingNr
    | some raw =>
      match eventOf raw pendingNr with
      -- as is one of another kind
      | none => drainReady items writer pendingNr
      | some (event, pendingNr) =>
        match writer.append crc32 event with
        | .error e => ([], .error e)
        | .ok (_, writer) =>
          let (events, result) := drainReady items writer pendingNr
          (event :: events, result)

/-- Failures of a recording under way. -/
inductive EbpfCaptureError where
  | trace (e : TraceError)
  | process (e : Errno)

/-- One round of polling: how many items are ready, and what `waitpid` says of the
target. -/
structure Poll where
  ready : Nat
  status : Except Errno WaitStatus

/-- Poll until the target has exited, with the items that were not drained by then;
`none` when it has not exited yet. -/
def pollUntilExit : List Poll → List Bytes → TraceWriter W → Pending → List Event ×
    Option (Except EbpfCaptureError (List Bytes × TraceWriter W × Pending × Option Int32))
  | [], _, _, _ => ([], none)
  | poll :: polls, items, writer, pendingNr =>
    match drainReady crc32 (items.take poll.ready) writer pendingNr with
    | (events, .error e) => (events, some (.error (.trace e)))
    | (events, .ok (writer, pendingNr)) =>
      let items := items.drop poll.ready
      match poll.status with
      | .error e => (events, some (.error (.process e)))
      | .ok (.exited _ code) => (events, some (.ok (items, writer, pendingNr, some code)))
      | .ok (.signaled _ _ _) => (events, some (.ok (items, writer, pendingNr, none)))
      -- still there: sleep, and poll again
      | .ok _ =>
        let (more, result) := pollUntilExit polls items writer pendingNr
        (events ++ more, result)

/-- The whole recording of the items: poll until the exit, then drain what is left. -/
def drainUntilExit (polls : List Poll) (items : List Bytes) (writer : TraceWriter W) :
    List Event × Option (Except EbpfCaptureError RecordOutcome) :=
  match pollUntilExit crc32 polls items writer ∅ with
  | (events, none) => (events, none)
  | (events, some (.error e)) => (events, some (.error e))
  | (events, some (.ok (items, writer, pendingNr, exitCode))) =>
    match drainReady crc32 items writer pendingNr with
    | (more, .error e) => (events ++ more, some (.error (.trace e)))
    | (more, .ok _) =>
      (events ++ more, some (.ok
        { exitCode, eventsRecorded := (events ++ more).length, threadsFollowed := 1 }))

end Collector

/-! ## What is written -/

/-- The events that count among the items of the ring buffer. -/
def accepted (items : List Bytes) : List RawSyscallEvent :=
  (items.filterMap RawSyscallEvent.decode).filter fun raw =>
    raw.kind = kindEnter ∨ raw.kind = kindExit

/-- The trace of events that count, from a table of unanswered entries. -/
def recordsFrom (pendingNr : Pending) : List RawSyscallEvent → List Event
  | [] => []
  | raw :: raws =>
    match eventOf raw pendingNr with
    | none => recordsFrom pendingNr raws
    | some (event, pendingNr) => event :: recordsFrom pendingNr raws

/-- The table after the events. -/
def pendingAfter (pendingNr : Pending) : List RawSyscallEvent → Pending
  | [] => pendingNr
  | raw :: raws =>
    match eventOf raw pendingNr with
    | none => pendingAfter pendingNr raws
    | some (_, pendingNr) => pendingAfter pendingNr raws

theorem eventOf_enter {raw : RawSyscallEvent} (h : raw.kind = kindEnter) (p : Pending) :
    eventOf raw p = some (enterEvent raw, p.insert raw.tid raw.nr) := by
  simp [eventOf, h]

theorem eventOf_exit {raw : RawSyscallEvent} (h : raw.kind = kindExit) (p : Pending) :
    eventOf raw p = some (exitEvent raw ((p[raw.tid]?).getD 0), p.erase raw.tid) := by
  have hne : kindExit ≠ kindEnter := by decide
  simp [eventOf, h, hne]

theorem eventOf_isSome {raw : RawSyscallEvent} {p : Pending}
    (h : raw.kind = kindEnter ∨ raw.kind = kindExit) : (eventOf raw p).isSome = true := by
  rcases h with h | h
  · rw [eventOf_enter h]
    rfl
  · rw [eventOf_exit h]
    rfl

theorem eventOf_none {raw : RawSyscallEvent} {p : Pending}
    (h : ¬ (raw.kind = kindEnter ∨ raw.kind = kindExit)) : eventOf raw p = none := by
  obtain ⟨he, hx⟩ := not_or.mp h
  simp [eventOf, he, hx]

theorem recordsFrom_append (p : Pending) (xs ys : List RawSyscallEvent) :
    recordsFrom p (xs ++ ys) = recordsFrom p xs ++ recordsFrom (pendingAfter p xs) ys := by
  induction xs generalizing p with
  | nil => rfl
  | cons x xs ih =>
    cases h : eventOf x p with
    | none => simp [recordsFrom, pendingAfter, h, ih]
    | some e => simp [recordsFrom, pendingAfter, h, ih]

theorem pendingAfter_append (p : Pending) (xs ys : List RawSyscallEvent) :
    pendingAfter p (xs ++ ys) = pendingAfter (pendingAfter p xs) ys := by
  induction xs generalizing p with
  | nil => rfl
  | cons x xs ih =>
    cases h : eventOf x p with
    | none => simp [pendingAfter, h, ih]
    | some e => simp [pendingAfter, h, ih]

theorem accepted_append (xs ys : List Bytes) :
    accepted (xs ++ ys) = accepted xs ++ accepted ys := by
  simp [accepted]

/-- `events` are the records of the items before `items'`, and `p'` is the table after
them. -/
def Drained (p : Pending) (items : List Bytes) (events : List Event) (items' : List Bytes)
    (p' : Pending) : Prop :=
  ∃ drained, items = drained ++ items' ∧ events = recordsFrom p (accepted drained) ∧
    p' = pendingAfter p (accepted drained)

section Drained

variable {p p' p'' : Pending} {items items' items'' : List Bytes} {events more : List Event}

/-- What is written afterwards continues the records of all the items. -/
theorem Drained.records (h : Drained p items events items' p') :
    recordsFrom p (accepted items) = events ++ recordsFrom p' (accepted items') := by
  obtain ⟨drained, rfl, rfl, rfl⟩ := h
  rw [accepted_append, recordsFrom_append]

theorem Drained.append_prefix (h : Drained p items events items' p')
    (hmore : more <+: recordsFrom p' (accepted items')) :
    events ++ more <+: recordsFrom p (accepted items) := by
  rw [h.records]
  exact (List.prefix_append_right_inj _).mpr hmore

theorem Drained.trans (h : Drained p items events items' p')
    (h' : Drained p' items' more items'' p'') :
    Drained p items (events ++ more) items'' p'' := by
  obtain ⟨drained, rfl, rfl, rfl⟩ := h
  obtain ⟨drained', rfl, rfl, rfl⟩ := h'
  refine ⟨drained ++ drained', ?_, ?_, ?_⟩
  · rw [List.append_assoc]
  · rw [accepted_append, recordsFrom_append]
  · rw [accepted_append, pendingAfter_append]

end Drained

section Written

variable {W : Type} [Write W] (crc32 : Bytes → UInt32)

/-- A drain appends records of its items from the front, all of them if it succeeds. -/
theorem drainReady_records (items : List Bytes) (writer : TraceWriter W) (p : Pending) :
    (drainReady crc32 items writer p).1 <+: recordsFrom p (accepted items) ∧
      ∀ after, (drainReady crc32 items writer p).2 = .ok after →
        Drained p items (drainReady crc32 items writer p).1 [] after.2 := by
  induction items generalizing writer p with
  | nil =>
    refine ⟨List.nil_prefix, ?_⟩
    rintro after ⟨⟩
    exact ⟨[], rfl, rfl, rfl⟩
  | cons item items ih =>
    cases hraw : RawSyscallEvent.decode item with
    | none =>
      have hskip : accepted (item :: items) = accepted items := by simp [accepted, hraw]
      simpa [drainReady, hraw, hskip, Drained] using ih writer p
    | some raw =>
      by_cases hkind : raw.kind = kindEnter ∨ raw.kind = kindExit
      · obtain ⟨⟨event, p'⟩, hevent⟩ := Option.isSome_iff_exists.mp (eventOf_isSome (p := p) hkind)
        have haccepted : accepted (item :: items) = raw :: accepted items := by
          simp [accepted, hraw, hkind]
        cases happend : writer.append crc32 event with
        | error e => simp [drainReady, hraw, hevent, happend]
        | ok written =>
          obtain ⟨hwritten, hall⟩ := ih written.2 p'
          simp only [drainReady, hraw, hevent, happend, haccepted, recordsFrom, pendingAfter,
            List.cons_prefix_cons, true_and, Drained, List.append_nil, exists_eq_left',
            List.cons.injEq] at hall ⊢
          exact ⟨hwritten, hall⟩
      · have hskip : accepted (item :: items) = accepted items := by
          simp [accepted, hraw, hkind]
        simpa [drainReady, hraw, eventOf_none hkind, hskip, Drained] using ih writer p

/-- The rounds of polling append records from the front as well; when the target has
exited, what they did not drain is a tail of the items. -/
theorem pollUntilExit_records (polls : List Poll) (items : List Bytes) (writer : TraceWriter W)
    (p : Pending) :
    (pollUntilExit crc32 polls items writer p).1 <+: recordsFrom p (accepted items) ∧
      ∀ items' writer' p' code,
        (pollUntilExit crc32 polls items writer p).2 = some (.ok (items', writer', p', code)) →
          Drained p items (pollUntilExit crc32 polls items writer p).1 items' p' := by
  -- Induction on the rounds; what one of them drained is put before what the rest drain.
  induction polls generalizing items writer p with
  | nil => simp [pollUntilExit]
  | cons poll polls ih =>
    have hsplit : items = items.take poll.ready ++ items.drop poll.ready :=
      (List.take_append_drop _ _).symm
    obtain ⟨hwritten, hall⟩ := drainReady_records crc32 (items.take poll.ready) writer p
    rcases hdrain : drainReady crc32 (items.take poll.ready) writer p with ⟨events, result⟩
    rw [hdrain] at hwritten hall
    cases result with
    | error e =>
      have hwhole : events <+: recordsFrom p (accepted items) := by
        rw [hsplit, accepted_append, recordsFrom_append]
        exact hwritten.trans (List.prefix_append _ _)
      simp only [pollUntilExit, hdrain]
      exact ⟨hwhole, by simp⟩
    | ok after =>
      -- this round has drained the first items and no more
      have hround : Drained p items events (items.drop poll.ready) after.2 := by
        obtain ⟨drained, hdrained, hevents, hpending⟩ := hall after rfl
        rw [List.append_nil] at hdrained
        exact ⟨drained, hdrained ▸ hsplit, hevents, hpending⟩
      have hwhole : events <+: recordsFrom p (accepted items) := by
        simpa using hround.append_prefix List.nil_prefix
      obtain ⟨hrest, ihall⟩ := ih (items.drop poll.ready) after.1 after.2
      simp only [pollUntilExit, hdrain]
      cases poll.status with
      | error e => exact ⟨hwhole, by simp⟩
      | ok status =>
        cases status with
        | exited pid code =>
          refine ⟨hwhole, ?_⟩
          rintro items' writer' p' code' ⟨⟩
          exact hround
        | signaled pid sig core =>
          refine ⟨hwhole, ?_⟩
          rintro items' writer' p' code' ⟨⟩
          exact hround
        | _ =>
          refine ⟨hround.append_prefix hrest, ?_⟩
          intro items' writer' p' code h
          exact hround.trans (ihall items' writer' p' code h)

/-- A recording writes records of the items from the front, all of them if it ends well. -/
theorem drainUntilExit_records (polls : List Poll) (items : List Bytes) (writer : TraceWriter W) :
    (drainUntilExit crc32 polls items writer).1 <+: recordsFrom ∅ (accepted items) ∧
      ∀ outcome, (drainUntilExit crc32 polls items writer).2 = some (.ok outcome) →
        (drainUntilExit crc32 polls items writer).1 = recordsFrom ∅ (accepted items) := by
  obtain ⟨hwritten, hall⟩ := pollUntilExit_records crc32 polls items writer ∅
  rcases hpoll : pollUntilExit crc32 polls items writer ∅ with ⟨events, result⟩
  rw [hpoll] at hwritten hall
  match result with
  | none => simpa only [drainUntilExit, hpoll] using ⟨hwritten, by simp⟩
  | some (.error e) => simpa only [drainUntilExit, hpoll] using ⟨hwritten, by simp⟩
  | some (.ok (items', writer', p', code)) =>
    -- The last drain, after the exit, goes on where the rounds stopped.
    have hdrained := hall items' writer' p' code rfl
    obtain ⟨hwritten', hall'⟩ := drainReady_records crc32 items' writer' p'
    rcases hdrain : drainReady crc32 items' writer' p' with ⟨more, result'⟩
    rw [hdrain] at hwritten' hall'
    cases result' with
    | error e =>
      simp only [drainUntilExit, hpoll, hdrain]
      exact ⟨hdrained.append_prefix hwritten', by simp⟩
    | ok after =>
      have hrecords := (hdrained.trans (hall' after rfl)).records
      have hnone : recordsFrom after.2 (accepted []) = [] := rfl
      rw [hnone, List.append_nil] at hrecords
      simp only [drainUntilExit, hpoll, hdrain, hrecords]
      exact ⟨List.prefix_rfl, fun _ _ => trivial⟩

/-- The events of a drain were appended to the trace, and the writer it gives back
stands behind them. -/
theorem drainReady_appended (items : List Bytes) (writer : TraceWriter W) (p : Pending) :
    ∃ writer', writer.appendAll crc32 (drainReady crc32 items writer p).1 = .ok writer' ∧
      ∀ after, (drainReady crc32 items writer p).2 = .ok after → after.1 = writer' := by
  induction items generalizing writer p with
  | nil =>
    refine ⟨writer, rfl, ?_⟩
    rintro after ⟨⟩
    rfl
  | cons item items ih =>
    cases hraw : RawSyscallEvent.decode item with
    | none => simpa only [drainReady, hraw] using ih writer p
    | some raw =>
      cases hevent : eventOf raw p with
      | none => simpa only [drainReady, hraw, hevent] using ih writer p
      | some recorded =>
        cases happend : writer.append crc32 recorded.1 with
        | error e =>
          simp only [drainReady, hraw, hevent, happend]
          exact ⟨writer, rfl, by simp⟩
        | ok written =>
          simp only [drainReady, hraw, hevent, happend, TraceWriter.appendAll, bind, Except.bind]
          exact ih written.2 recorded.2

theorem pollUntilExit_appended (polls : List Poll) (items : List Bytes) (writer : TraceWriter W)
    (p : Pending) :
    ∃ writer', writer.appendAll crc32 (pollUntilExit crc32 polls items writer p).1 = .ok writer' ∧
      ∀ after, (pollUntilExit crc32 polls items writer p).2 = some (.ok after) →
        after.2.1 = writer' := by
  induction polls generalizing items writer p with
  | nil => exact ⟨writer, rfl, by simp [pollUntilExit]⟩
  | cons poll polls ih =>
    obtain ⟨writer', happend, hall⟩ := drainReady_appended crc32 (items.take poll.ready) writer p
    rcases hdrain : drainReady crc32 (items.take poll.ready) writer p with ⟨events, result⟩
    rw [hdrain] at happend hall
    cases result with
    | error e =>
      simp only [pollUntilExit, hdrain]
      exact ⟨writer', happend, by simp⟩
    | ok after =>
      obtain rfl := hall after rfl
      obtain ⟨writer', hmore, hall'⟩ := ih (items.drop poll.ready) after.1 after.2
      simp only [pollUntilExit, hdrain]
      cases poll.status with
      | error e => exact ⟨after.1, happend, by simp⟩
      | ok status =>
        cases status with
        | exited pid code =>
          refine ⟨after.1, happend, ?_⟩
          rintro r ⟨⟩
          rfl
        | signaled pid sig core =>
          refine ⟨after.1, happend, ?_⟩
          rintro r ⟨⟩
          rfl
        | _ =>
          refine ⟨writer', ?_, hall'⟩
          rw [appendAll_append crc32 happend]
          exact hmore

/-- The events of a recording are those that were appended to its trace. -/
theorem drainUntilExit_appended (polls : List Poll) (items : List Bytes) (writer : TraceWriter W) :
    ∃ writer', writer.appendAll crc32 (drainUntilExit crc32 polls items writer).1 =
      .ok writer' := by
  obtain ⟨writer', happend, hall⟩ := pollUntilExit_appended crc32 polls items writer ∅
  rcases hpoll : pollUntilExit crc32 polls items writer ∅ with ⟨events, result⟩
  rw [hpoll] at happend hall
  match result with
  | none => exact ⟨writer', by simpa only [drainUntilExit, hpoll] using happend⟩
  | some (.error e) => exact ⟨writer', by simpa only [drainUntilExit, hpoll] using happend⟩
  | some (.ok (items', after, p', code)) =>
    obtain rfl := hall _ rfl
    obtain ⟨writer'', hmore, -⟩ := drainReady_appended crc32 items' after p'
    rcases hdrain : drainReady crc32 items' after p' with ⟨more, result'⟩
    rw [hdrain] at hmore
    refine ⟨writer'', ?_⟩
    cases result' with
    | error e =>
      simp only [drainUntilExit, hpoll, hdrain]
      rw [appendAll_append crc32 happend]
      exact hmore
    | ok _ =>
      simp only [drainUntilExit, hpoll, hdrain]
      rw [appendAll_append crc32 happend]
      exact hmore

end Written

/-! ## Pairing -/

/-- Every exit of the trace carries the number of an earlier entry of its thread, with
no other exit of the thread between them. -/
def Paired (trace : List Event) : Prop :=
  ∀ pre e post tid, trace = pre ++ e :: post → e.kind = .syscallExit → e.tid = some tid →
    ∃ pre' en mid enter exit, pre = pre' ++ en :: mid ∧
      en.kind = .syscallEnter ∧ en.tid = some tid ∧
      SyscallEnter.decode en.payload = .ok enter ∧ SyscallExit.decode e.payload = .ok exit ∧
      exit.nr = enter.nr ∧ ∀ m ∈ mid, ¬ (m.kind = .syscallExit ∧ m.tid = some tid)

/-- No exit carries a number that no earlier entry of its thread has. -/
def NoneInvented (trace : List Event) : Prop :=
  ∀ pre e post tid exit, trace = pre ++ e :: post → e.kind = .syscallExit → e.tid = some tid →
    SyscallExit.decode e.payload = .ok exit →
    ∃ en ∈ pre, en.kind = .syscallEnter ∧ en.tid = some tid ∧
      ∃ enter, SyscallEnter.decode en.payload = .ok enter ∧ enter.nr = exit.nr

theorem Paired.noneInvented {trace : List Event} (h : Paired trace) : NoneInvented trace := by
  intro pre e post tid exit hsplit hkind htid hexit
  obtain ⟨pre', en, mid, enter, exit', rfl, henter, hentid, hdecode, hexit', hnr, -⟩ :=
    h pre e post tid hsplit hkind htid
  obtain rfl := Except.ok.inj (hexit.symm.trans hexit')
  exact ⟨en, by simp, henter, hentid, enter, hdecode, hnr.symm⟩

/-- The last event of a thread. -/
def lastOf (tid : UInt32) (raws : List RawSyscallEvent) : Option RawSyscallEvent :=
  (raws.filter (·.tid = tid)).getLast?

/-- Every exit directly follows an entry among the events of its thread: no thread
begins with an exit, and none has two exits in a row. -/
def Answered (raws : List RawSyscallEvent) : Prop :=
  ∀ pre v post, raws = pre ++ v :: post → v.kind = kindExit →
    (lastOf v.tid pre).map (·.kind) = some kindEnter

/-- Entries and exits only. -/
def Syscalls (raws : List RawSyscallEvent) : Prop :=
  ∀ raw ∈ raws, raw.kind = kindEnter ∨ raw.kind = kindExit

theorem lastOf_cons (tid : UInt32) (x : RawSyscallEvent) (raws : List RawSyscallEvent) :
    lastOf tid (x :: raws) =
      (lastOf tid raws).or (if x.tid = tid then some x else none) := by
  by_cases hx : x.tid = tid
  · cases h : (raws.filter (·.tid = tid)).getLast? <;>
      simp [lastOf, hx, List.getLast?_cons, h]
  · simp [lastOf, hx]

theorem lastOf_split {tid : UInt32} {raws : List RawSyscallEvent} {v : RawSyscallEvent}
    (h : lastOf tid raws = some v) :
    ∃ xs ys, raws = xs ++ v :: ys ∧ v.tid = tid ∧ ∀ y ∈ ys, y.tid ≠ tid := by
  induction raws with
  | nil => simp [lastOf] at h
  | cons x raws ih =>
    rw [lastOf_cons] at h
    cases hrest : lastOf tid raws with
    | none =>
      have hnone : ∀ y ∈ raws, y.tid ≠ tid := by simpa [lastOf] using hrest
      obtain ⟨hx, rfl⟩ : x.tid = tid ∧ x = v := by simpa [hrest] using h
      exact ⟨[], raws, rfl, hx, hnone⟩
    | some w =>
      obtain rfl : w = v := by simpa [hrest] using h
      obtain ⟨xs, ys, rfl, hv, hys⟩ := ih hrest
      exact ⟨x :: xs, ys, rfl, hv, hys⟩

theorem lastOf_append_cons {tid : UInt32} (xs ys : List RawSyscallEvent) {v : RawSyscallEvent}
    (hv : v.tid = tid) : ∃ w, (w = v ∨ w ∈ ys) ∧ w.tid = tid ∧
      lastOf tid (xs ++ v :: ys) = some w := by
  have hfilter : (xs ++ v :: ys).filter (·.tid = tid) =
      xs.filter (·.tid = tid) ++ v :: ys.filter (·.tid = tid) := by
    simp [hv]
  cases hlast : (ys.filter (·.tid = tid)).getLast? with
  | none =>
    refine ⟨v, .inl rfl, hv, ?_⟩
    rw [lastOf, hfilter]
    simp [List.getLast?_append, List.getLast?_cons, hlast]
  | some w =>
    have hmem := List.mem_filter.mp (List.mem_of_getLast? hlast)
    refine ⟨w, .inr hmem.1, by simpa using hmem.2, ?_⟩
    rw [lastOf, hfilter]
    simp [List.getLast?_append, List.getLast?_cons, hlast]

/-- The table has the number of a thread's last event exactly when that is an entry. -/
theorem pendingAfter_get {raws : List RawSyscallEvent} (h : Syscalls raws) (p : Pending)
    (tid : UInt32) :
    (pendingAfter p raws)[tid]? =
      match lastOf tid raws with
      | some v => if v.kind = kindEnter then some v.nr else none
      | none => p[tid]? := by
  -- From the front: an event of another thread leaves the entry, a later one of this
  -- thread overrides it.
  induction raws generalizing p with
  | nil => rfl
  | cons x raws ih =>
    have htail : Syscalls raws := fun raw hraw => h raw (by simp [hraw])
    rw [lastOf_cons]
    rcases h x (by simp) with hkind | hkind
    · simp only [pendingAfter, eventOf_enter hkind, ih htail, KeyMap.get_insert]
      cases lastOf tid raws with
      | some v => rfl
      | none => by_cases hx : x.tid = tid <;> simp [hx, hkind]
    · have hne : ¬ x.kind = kindEnter := by
        rw [hkind]
        decide
      simp only [pendingAfter, eventOf_exit hkind, ih htail, KeyMap.get_erase]
      cases lastOf tid raws with
      | some v => rfl
      | none => by_cases hx : x.tid = tid <;> simp [hx, hne]

/-- A record of the trace is some event's, and what stands before it is the records of
the events before. -/
theorem recordsFrom_split {raws : List RawSyscallEvent} (h : Syscalls raws) {p : Pending}
    {pre post : List Event} {e : Event} (hsplit : recordsFrom p raws = pre ++ e :: post) :
    ∃ xs v ys p', raws = xs ++ v :: ys ∧ pre = recordsFrom p xs ∧
      eventOf v (pendingAfter p xs) = some (e, p') ∧ post = recordsFrom p' ys := by
  induction raws generalizing p pre with
  | nil => simp [recordsFrom] at hsplit
  | cons x raws ih =>
    have htail : Syscalls raws := fun raw hraw => h raw (by simp [hraw])
    obtain ⟨⟨ev, p'⟩, hev⟩ := Option.isSome_iff_exists.mp (eventOf_isSome (p := p) (h x (by simp)))
    simp only [recordsFrom, hev] at hsplit
    cases pre with
    | nil =>
      obtain ⟨rfl, rfl⟩ := List.cons.inj hsplit
      exact ⟨[], x, raws, p', rfl, rfl, hev, rfl⟩
    | cons first pre =>
      obtain ⟨rfl, hrest⟩ := List.cons.inj hsplit
      obtain ⟨xs, v, ys, q, rfl, rfl, hv, rfl⟩ := ih htail hrest
      refine ⟨x :: xs, v, ys, q, rfl, ?_, ?_, rfl⟩
      · simp only [recordsFrom, hev]
      · simpa only [pendingAfter, hev] using hv

/-- What the record of an event says of it. -/
theorem eventOf_some {raw : RawSyscallEvent} (h : raw.kind = kindEnter ∨ raw.kind = kindExit)
    {p p' : Pending} {e : Event} (he : eventOf raw p = some (e, p')) :
    e.tid = some raw.tid ∧ (e.kind = .syscallExit ↔ raw.kind = kindExit) ∧
      (e.kind = .syscallEnter ↔ raw.kind = kindEnter) := by
  have hne : kindExit ≠ kindEnter := by decide
  rcases h with h | h
  · rw [eventOf_enter h] at he
    obtain ⟨rfl, -⟩ := Prod.mk.inj (Option.some.inj he)
    simp [enterEvent, Event.newWithTid, h, hne.symm]
  · rw [eventOf_exit h] at he
    obtain ⟨rfl, -⟩ := Prod.mk.inj (Option.some.inj he)
    simp [exitEvent, Event.newWithTid, h, hne]

theorem mem_recordsFrom {raws : List RawSyscallEvent} (h : Syscalls raws) {p : Pending}
    {e : Event} (he : e ∈ recordsFrom p raws) :
    ∃ v ∈ raws, e.tid = some v.tid ∧ (e.kind = .syscallExit ↔ v.kind = kindExit) := by
  obtain ⟨pre, post, hsplit⟩ := List.append_of_mem he
  obtain ⟨xs, v, ys, p', rfl, -, hv, -⟩ := recordsFrom_split h hsplit
  have hsome := eventOf_some (h v (by simp)) hv
  exact ⟨v, by simp, hsome.1, hsome.2.1⟩

theorem exists_record {raws : List RawSyscallEvent} (h : Syscalls raws) (p : Pending)
    {v : RawSyscallEvent} (hv : v ∈ raws) :
    ∃ e ∈ recordsFrom p raws, e.tid = some v.tid ∧ (e.kind = .syscallExit ↔ v.kind = kindExit) := by
  obtain ⟨xs, ys, rfl⟩ := List.append_of_mem hv
  obtain ⟨⟨e, p'⟩, he⟩ :=
    Option.isSome_iff_exists.mp (eventOf_isSome (p := pendingAfter p xs) (h v (by simp)))
  have hsome := eventOf_some (h v (by simp)) he
  refine ⟨e, ?_, hsome.1, hsome.2.1⟩
  rw [recordsFrom_append]
  simp [recordsFrom, he]

/-- The records are paired exactly when every exit directly follows an entry. -/
theorem paired_recordsFrom_iff {raws : List RawSyscallEvent} (h : Syscalls raws) :
    Paired (recordsFrom ∅ raws) ↔ Answered raws := by
  constructor
  -- From the trace to the events: the last event of the thread is the paired entry, or
  -- comes after it and would be an exit in between.
  · intro hpaired pre v post hraws hkind
    have hv : v.kind = kindEnter ∨ v.kind = kindExit := .inr hkind
    have hpre : Syscalls pre := fun raw hraw => h raw (by simp [hraws, hraw])
    obtain ⟨⟨e, p'⟩, he⟩ :=
      Option.isSome_iff_exists.mp (eventOf_isSome (p := pendingAfter ∅ pre) hv)
    have hrecords : recordsFrom ∅ raws = recordsFrom ∅ pre ++ e :: recordsFrom p' post := by
      rw [hraws, recordsFrom_append]
      simp [recordsFrom, he]
    have hsome := eventOf_some hv he
    obtain ⟨pre', en, mid, enter, exit, hsplit, henter, htid, -, -, -, hmid⟩ :=
      hpaired _ e _ v.tid hrecords (hsome.2.1.mpr hkind) hsome.1
    -- the event of the entry, and the last one of the thread from there on
    obtain ⟨xs, x, ys, q, rfl, rfl, hx, rfl⟩ := recordsFrom_split hpre hsplit
    have hxsome := eventOf_some (hpre x (by simp)) hx
    have hxtid : x.tid = v.tid := by simpa [hxsome.1] using htid
    obtain ⟨w, hw, hwtid, hlast⟩ := lastOf_append_cons xs ys hxtid
    rw [hlast, Option.map_some, Option.some.injEq]
    rcases hw with rfl | hw
    · exact hxsome.2.2.mp henter
    · have hys : Syscalls ys := fun raw hraw => hpre raw (by simp [hraw])
      rcases hys w hw with hwkind | hwkind
      · exact hwkind
      · obtain ⟨m, hm, hmtid, hmkind⟩ := exists_record hys q hw
        exact absurd ⟨hmkind.mpr hwkind, hwtid ▸ hmtid⟩ (hmid m hm)
  -- And back: the last event of the thread is an entry, so the table holds its number
  -- and the exit is written with it.
  · intro hanswered pre e post tid hsplit hkind htid
    obtain ⟨xs, v, ys, p', rfl, rfl, hv, rfl⟩ := recordsFrom_split h hsplit
    have hxs : Syscalls xs := fun raw hraw => h raw (by simp [hraw])
    have hsome := eventOf_some (h v (by simp)) hv
    obtain rfl : v.tid = tid := by simpa [hsome.1] using htid
    have hvkind := hsome.2.1.mp hkind
    have hlast := hanswered xs v ys rfl hvkind
    obtain ⟨l, hl, hlkind⟩ := Option.map_eq_some_iff.mp hlast
    obtain ⟨as, bs, rfl, hltid, hbs⟩ := lastOf_split hl
    have hnr := pendingAfter_get hxs ∅ v.tid
    simp only [hl, hlkind, ↓reduceIte] at hnr
    rw [eventOf_exit hvkind, hnr] at hv
    obtain ⟨rfl, -⟩ := Prod.mk.inj (Option.some.inj hv)
    have hrecords : recordsFrom ∅ (as ++ l :: bs) = recordsFrom ∅ as ++
        enterEvent l :: recordsFrom ((pendingAfter ∅ as).insert l.tid l.nr) bs := by
      rw [recordsFrom_append]
      simp only [recordsFrom, eventOf_enter hlkind]
    refine ⟨_, _, _, _, _, hrecords, rfl, ?_, SyscallEnter.decode_encode _,
      SyscallExit.decode_encode (by simp), rfl, ?_⟩
    · simp [enterEvent, Event.newWithTid, hltid]
    · rintro m hm ⟨-, hmtid⟩
      have hbsys : Syscalls bs := fun raw hraw => hxs raw (by simp [hraw])
      obtain ⟨b, hb, hbtid, -⟩ := mem_recordsFrom hbsys hm
      exact hbs b hb (by simpa [hbtid] using hmtid)

/-! ## The recording -/

theorem submitted_kind {f : Firing} {raw : RawSyscallEvent} (h : f.submitted = some raw) :
    raw.kind = kindEnter ∨ raw.kind = kindExit := by
  cases f with
  | sysEnter ctx =>
    simp only [Firing.submitted, trySysEnter, emit, Option.bind_eq_bind, Option.bind_eq_some_iff,
      Option.ite_none_right_eq_some, Option.some.injEq] at h
    obtain ⟨-, -, -, -, -, rfl⟩ := h
    exact .inl rfl
  | sysExit ctx =>
    simp only [Firing.submitted, trySysExit, emit, Option.bind_eq_bind, Option.bind_eq_some_iff,
      Option.ite_none_right_eq_some, Option.some.injEq] at h
    obtain ⟨-, -, -, rfl⟩ := h
    exact .inr rfl

theorem syscalls_delivered (firings : List Firing) : Syscalls (delivered firings) := by
  intro raw hraw
  obtain ⟨f, -, hf⟩ := List.mem_filterMap.mp hraw
  exact submitted_kind hf

/-- The collector accepts what the kernel side delivered. -/
theorem accepted_ring (firings : List Firing) : accepted (ring firings) = delivered firings := by
  have hdecode : (fun raw : RawSyscallEvent => RawSyscallEvent.decode raw.encode) = some := by
    funext raw
    simpa using RawSyscallEvent.decode_encode raw []
  rw [accepted, ring, List.filterMap_map, Function.comp_def, hdecode, List.filterMap_some,
    List.filter_eq_self]
  intro raw hraw
  simpa using syscalls_delivered firings raw hraw

theorem recordsFrom_take {raws : List RawSyscallEvent} (h : Syscalls raws) (p : Pending) (n : Nat) :
    recordsFrom p (raws.take n) = (recordsFrom p raws).take n := by
  induction raws generalizing p n with
  | nil => simp [recordsFrom]
  | cons x raws ih =>
    have htail : Syscalls raws := fun raw hraw => h raw (by simp [hraw])
    obtain ⟨⟨e, p'⟩, he⟩ := Option.isSome_iff_exists.mp (eventOf_isSome (p := p) (h x (by simp)))
    cases n with
    | zero => simp [recordsFrom]
    | succ n => simp [recordsFrom, he, ih htail]

theorem length_recordsFrom {raws : List RawSyscallEvent} (h : Syscalls raws) (p : Pending) :
    (recordsFrom p raws).length = raws.length := by
  induction raws generalizing p with
  | nil => rfl
  | cons x raws ih =>
    have htail : Syscalls raws := fun raw hraw => h raw (by simp [hraw])
    obtain ⟨⟨e, p'⟩, he⟩ := Option.isSome_iff_exists.mp (eventOf_isSome (p := p) (h x (by simp)))
    simp [recordsFrom, he, ih htail]

section Recording

variable {W : Type} [Write W] (crc32 : Bytes → UInt32)

/-- In a recording of any firings, drained in any rounds, the exits that were written
are paired exactly when each of them directly followed an entry among the delivered
events of its thread; a recording that ends well has written every delivered event. -/
theorem exits_paired_iff (firings : List Firing) (polls : List Poll) (writer : TraceWriter W) :
    let run := drainUntilExit crc32 polls (ring firings) writer
    (∃ writer', writer.appendAll crc32 run.1 = .ok writer') ∧
      (Paired run.1 ∧ NoneInvented run.1 ↔ Answered ((delivered firings).take run.1.length)) ∧
      ∀ outcome, run.2 = some (.ok outcome) → run.1.length = (delivered firings).length := by
  have hsys := syscalls_delivered firings
  obtain ⟨hwritten, hall⟩ := drainUntilExit_records crc32 polls (ring firings) writer
  rw [accepted_ring] at hwritten hall
  refine ⟨drainUntilExit_appended crc32 polls (ring firings) writer, ?_, ?_⟩
  · have htrace := List.prefix_iff_eq_take.mp hwritten
    rw [← recordsFrom_take hsys] at htrace
    have htake : Syscalls ((delivered firings).take
        (drainUntilExit crc32 polls (ring firings) writer).1.length) :=
      fun raw hraw => hsys raw (List.mem_of_mem_take hraw)
    -- The trace is the records of the events that were written, and of no others.
    have hiff := paired_recordsFrom_iff htake
    rw [← htrace] at hiff
    exact ⟨fun h => hiff.mp h.1, fun h => ⟨hiff.mpr h, (hiff.mpr h).noneInvented⟩⟩
  · intro outcome houtcome
    rw [hall outcome houtcome, length_recordsFrom hsys]

end Recording

/-- A thread of the target returns from a `write` that it entered before the filter was
configured. -/
def orphanExit : List Firing :=
  let ctx : Context :=
    { pidTgid := 0x6400000064, arg := 1, syscallArgs := some (Vector.replicate 6 0),
      ktimeNs := 10, targetTgid := 0, room := true }
  [.sysEnter ctx, .sysExit { ctx with arg := 5, ktimeNs := 20, targetTgid := 100 }]

/-- The exit is written as one of syscall 0, with no entry before it. -/
theorem exits_paired_orphan :
    let run := drainUntilExit Crc32.hash [⟨1, .ok (.exited 100 0)⟩] (ring orphanExit)
      ⟨ByteVec.empty, 0⟩
    ¬ (Paired run.1 ∧ NoneInvented run.1) := by
  intro run h
  have hrun : run.1 = [Event.newWithTid .syscallExit 20 100
      (SyscallExit.encode { nr := 0, ret := 5, data := [] })] := by
    decide +kernel
  obtain ⟨pre', en, mid, enter, exit, hpre, -⟩ := h.1 [] _ [] 100 hrun rfl rfl
  simp at hpre

end Mirrorscope.Ebpf
