import Mirrorscope.Replay.Travel
import Mirrorscope.Trace.Grammar
import Mirrorscope.Trace.RoundTrip

/-! # Histories of a session

What a session is launched on, and the calls made on it since. A trace is what
the reader accepts, so its sequence numbers increase; a history keeps the calls
and their answers to what a property is about.
-/

namespace Mirrorscope.Replay

open Capture Linux Run
open Trace (Cmdline Record TraceError TraceReader)

/-- The bytes are a trace with this command line and these records. -/
def Opened (crc32 : Bytes → UInt32) (bytes : Bytes) (cmdline : Cmdline) (records : List Record) :
    Prop :=
  ∃ reader : TraceReader Bytes, TraceReader.open bytes = .ok reader ∧
    reader.cmdline = some cmdline ∧ reader.Yields crc32 (records.map .ok)

/-- The reader only accepts increasing sequence numbers. -/
theorem Opened.increasing {crc32 : Bytes → UInt32} {bytes : Bytes} {cmdline : Cmdline}
    {records : List Record} (h : Opened crc32 bytes cmdline records) : Increasing records := by
  rcases h with ⟨reader, hopen, -, hyields⟩
  have hclean := (TraceReader.open_ok hopen).2.2.2.2
  rcases @TraceReader.iterates crc32 reader hclean with ⟨bodies, tail, -, hbodies, -, hseq, -, -⟩
  have hmap : bodies.map (fun body =>
      (.ok (Trace.decodeBody reader.version body) : Except TraceError Record)) =
        (bodies.map (Trace.decodeBody reader.version)).map .ok := by
    rw [List.map_map]
    rfl
  rw [hmap] at hbodies
  rcases Trace.no_error_of_yields hbodies hyields with rfl
  have hsame := TraceReader.Yields.unique hbodies hyields
  rw [List.map_nil, List.append_nil] at hsame
  have hrecords : bodies.map (Trace.decodeBody reader.version) = records :=
    List.map_injective_iff.mpr (fun _ _ h => Except.ok.inj h) hsame
  rw [Increasing, ← hrecords, List.map_map]
  exact hseq

/-- A trace holds the events it was made of. -/
theorem opened_stored {crc32 : Bytes → UInt32} {cmdline : Cmdline} {events : List Trace.Event}
    (hheader : Trace.baseHeaderLen + (Trace.cmdlineBytes (some cmdline)).length < 65536)
    (hlen : ∀ event ∈ events, event.payload.length ≤ Trace.maxBodyLen - Trace.bodyPrefixLenV3)
    (hcount : events.length ≤ 2 ^ 64) :
    Opened crc32 (Trace.headerBytes (Trace.cmdlineBytes (some cmdline)) ++
      ((Trace.bodies 0 events).map (Trace.frame crc32)).flatten) cmdline
      (Trace.storedRecords 0 events) := by
  let region := ((Trace.bodies 0 events).map (Trace.frame crc32)).flatten
  refine ⟨_, Trace.open_header (some cmdline) region hheader, rfl, ?_⟩
  rcases Trace.yields_stored
    (r := { inner := region, version := Trace.formatVersion, cmdline := some cmdline,
            lastSeq := none, poisoned := false })
    events 0 [] rfl rfl rfl (List.append_nil _).symm hlen (by omega) with ⟨last, hyields⟩
  have hend := hyields [] (TraceReader.Yields.nil (TraceReader.next_end rfl))
  rwa [List.append_nil] at hend

/-- A trace has one list of records. -/
theorem Opened.unique {crc32 : Bytes → UInt32} {bytes : Bytes} {cmdline cmdline' : Cmdline}
    {records records' : List Record} (h : Opened crc32 bytes cmdline records)
    (h' : Opened crc32 bytes cmdline' records') : records = records' := by
  rcases h with ⟨reader, hopen, -, hyields⟩
  rcases h' with ⟨reader', hopen', -, hyields'⟩
  rw [hopen] at hopen'
  rcases Except.ok.inj hopen' with rfl
  exact List.map_injective_iff.mpr (fun _ _ h => Except.ok.inj h)
    (TraceReader.Yields.unique hyields hyields')

variable {arch : Arch} {M : Machine arch} {cmdline : Cmdline} {records : List Record}
  {w f : World (Os M)} {laws : ForkLaws M}

/-- An answer of a call. -/
abbrev Answer := Except ReplayError (Option ExitOutcome)

/-- The states of a session on a trace: launched in any system, then calls that with their
answers are as `allowed` in the state they are made in. -/
inductive History (M : Machine arch) (cmdline : Cmdline) (records : List Record)
    (allowed : World (Os M) → SessionCall → Answer → Prop) : World (Os M) → Prop where
  | launch {os : Os M} {w : World (Os M)}
      (h : exec (launch arch) ⟨ReplaySession.ofTrace cmdline records, os⟩ = some (.ok (), w)) :
      History M cmdline records allowed w
  | call {w w' : World (Os M)} {r : Answer} (hw : History M cmdline records allowed w)
      (c : SessionCall) (hc : allowed w c r) (h : exec (perform arch c) w = some (r, w')) :
      History M cmdline records allowed w'

theorem History.mono {allowed allowed' : World (Os M) → SessionCall → Answer → Prop}
    (hmono : ∀ w c r, allowed w c r → allowed' w c r) (h : History M cmdline records allowed w) :
    History M cmdline records allowed' w := by
  induction h with
  | launch h => exact .launch h
  | call _ c hc h ih => exact .call ih c (hmono _ c _ hc) h

theorem Launched.entry (h : Launched cmdline records f) (hseq : Increasing records) : Entry f := by
  rcases h with ⟨⟨pid, hsession⟩, j, hseat⟩
  have hcmdline : f.session.cmdline = cmdline := by rw [hsession]; rfl
  have hrecords : f.session.records = records := by rw [hsession]; rfl
  have hcursor : f.session.cursor = 0 := by rw [hsession]; rfl
  have hcurrent : f.session.currentSeq = none := by rw [hsession]; rfl
  exact
    { aligned := by
        unfold Aligned
        rw [hcursor, hcurrent]
        rfl
      increasing := by
        rw [hrecords]
        exact hseq
      image := ⟨j, hcmdline.symm ▸ hseat⟩
      unwatched := by rw [hsession]; rfl
      unfinished := by rw [hsession]; rfl
      current := hcurrent
      cursor := hcursor
      pending := by rw [hsession]; rfl
      resumeSignal := by rw [hsession]; rfl
      lastRegs := by rw [hsession]; rfl
      mt := by rw [hsession]; rfl }

/-- Two sessions launched on one trace are twins, with all that is so of a new tracee. -/
theorem Launched.twin {K : Image M → Prop} (hK : K (entryImage M cmdline))
    (hw : Launched cmdline records w) (hf : Launched cmdline records f) :
    ∃ i j, Twin K i j w f := by
  rcases hw with ⟨⟨pid, hsession⟩, i, hseat⟩
  rcases hf with ⟨⟨pid', hsession'⟩, j, hseat'⟩
  refine ⟨i, j, ?_, ?_, ⟨entryImage M cmdline, hK, hseat.image, hseat'.image⟩,
    ⟨hseat.proc, hseat'.proc⟩, ?_⟩
  · rw [hsession, hsession']
    constructor <;> rfl
  · rw [hsession, hsession']
    exact ⟨.inl rfl, .inl rfl⟩
  · rw [hsession, hsession']
    exact .none

theorem Launched.traveler {err : Prop} (hw : Launched cmdline records w)
    (hf : Launched cmdline records f) : Traveler laws f err w := by
  rcases Launched.twin (entryImage_stance laws cmdline) hw hf with ⟨i, j, htwin⟩
  rcases hw.session with ⟨pid, hsession⟩
  rcases hf.session with ⟨pid', hsession'⟩
  have hcoupled : Coupled laws i j w f := by
    have hpending : w.session.pending.isSome = false := by rw [hsession]; rfl
    rwa [← hpending] at htwin
  refine ⟨i, ?_, .tracking (.zero f) (Lead.start _ _ _) hcoupled (by rw [hsession]; rfl)⟩
  exact
    { cmdline := by rw [hsession, hsession']
      records := by rw [hsession, hsession']
      multithreaded := by rw [hsession, hsession']
      mt := by rw [hsession]; rfl
      unwatched := htwin.unwatched.1
      armed := by
        intro wp hwp
        rw [hsession] at hwp
        cases hwp
      stored := by
        intro c hc
        rw [hsession] at hc
        cases hc }

/-- Every state of a history on a single-threaded trace has the invariant. -/
theorem History.traveler {err : Prop} {allowed : World (Os M) → SessionCall → Answer → Prop}
    (hallowed : ∀ w c r, allowed w c r →
      (c.arms = false ∨ Quiet M) ∧ ((∃ a, r = .ok a) ∨ err) ∧
        (Traveler laws f err w → Steers laws w c))
    (hseq : Increasing records) (hsingle : traceIsMultithreaded records = false)
    (hf : Launched cmdline records f) (h : History M cmdline records allowed w) :
    Traveler laws f err w := by
  have hentry := hf.entry hseq
  have hsingle' : f.session.multithreaded = false := by
    rcases hf.session with ⟨pid, hsession⟩
    rw [hsession]
    exact hsingle
  induction h with
  | launch h => exact (launch_launched h).traveler hf
  | @call w w' r _ c hc hexec ih =>
    rcases hallowed w c r hc with ⟨hquiet, hanswer, hsteers⟩
    have hpost := perform_keeping hentry hsingle' c hquiet w ⟨ih, hsteers ih⟩ r w' hexec
    cases r with
    | ok a => exact hpost
    | error e =>
      rcases hanswer with ⟨a, ha⟩ | herr
      · cases ha
      · rcases eq_true herr with rfl
        exact hpost

/-- As long as no call fails, the session can always be driven on. -/
theorem History.steers (laws : ForkLaws M) (hseq : Increasing records)
    (hsingle : traceIsMultithreaded records = false) (hf : Launched cmdline records f)
    (h : History M cmdline records
      (fun _ c r => (c.arms = false ∨ Quiet M) ∧ ∃ a, r = .ok a) w) :
    History M cmdline records
      (fun w c _ => (c.arms = false ∨ Quiet M) ∧ Steers laws w c) w := by
  induction h with
  | launch h => exact .launch h
  | call hw c hc hexec ih =>
    have htraveler : Traveler laws f False _ :=
      hw.traveler (fun _ _ _ hc => ⟨hc.1, .inl hc.2, fun h _ => h.driveable⟩) hseq hsingle hf
    exact .call ih c ⟨hc.1, fun _ => htraveler.driveable⟩ hexec

end Mirrorscope.Replay
