import Mirrorscope.Dap.Stepping

/-! # Debugging a replayed trace

The runs of the replay backend on a trace: in each of them the session travels along
the straight run, the index follows it, and every step does what the index calls for.

What is kept from call to call is `Guided`: the session is a traveler on the straight run from
`f`, and the cursor of the backend stands where the session does.
* `goto_goes`, `runToEnd_runs`: the two ways a call moves the session, with what is reported.
* `Step.Follows`: what a step is supposed to do. `Step.Guarded`: the steps that do it.
* `move_steps`: each call of a run. `steps_follow_iff`: the runs.
The section at the end has the run in which `next` misses an event.
-/

namespace Mirrorscope.Dap

open Linux Replay Run ReplayBackend
open Trace (Cmdline Record)

/-! ## What a call that was answered did -/

/-- How an outcome is described. -/
def describe (reason : String) : ExitOutcome → StopInfo
  | .running => .onMain reason
  | .exited code => .exited code.toInt
  | .signaled signal => .exited (128 + signal).toInt

theorem describe_gone {reason : String} {outcome : ExitOutcome} (h : outcome ≠ .running) :
    ∃ code, describe reason outcome = .exited code := by
  cases outcome with
  | running => exact absurd rfl h
  | exited code => exact ⟨_, rfl⟩
  | signaled signal => exact ⟨_, rfl⟩

section Calls

variable {ω : Type} {arch : Arch} [Ptrace arch ω] [Unwind ω] {text : ReplayError → String}
  {b b' : Hosted ReplayBackend ω} {info : StopInfo} {reason : String} {i : Nat}

/-- The call drove the session to `outcome`, and left the index at `cursor`. -/
structure Drove (m : Method ω ExitOutcome) (reason : String) (b : Hosted ReplayBackend ω)
    (outcome : ExitOutcome) (cursor : Nat) (info : StopInfo) (b' : Hosted ReplayBackend ω) :
    Prop where
  session : exec m (world b) = some (.ok outcome, world b')
  info : info = describe reason outcome
  cursor : b'.object.cursor = cursor
  events : b'.object.events = b.object.events

omit [Unwind ω] in
/-- A call drives the session, moves the index and describes the outcome. -/
theorem drove_of_ok {m : Method ω ExitOutcome} {c : ReplayBackend → Nat}
    (h : exec (do
      let outcome ← onSession text m
      modifyObject fun b => { b with cursor := c b }
      classify reason outcome : ReplayMethod ω StopInfo) b = some (.ok info, b')) :
    ∃ outcome, Drove m reason b outcome
      (c { b.object with session := b'.object.session }) info b' := by
  rcases bind_ok_inv h with ⟨outcome, b₁, hsession, hrest⟩
  rcases exec_zoom_ok_inv hsession with ⟨w, hm, rfl⟩
  rcases bind_ok_inv hrest with ⟨done, b₂, hmodify, hclassify⟩
  rcases exec_modifyObject_inv hmodify with ⟨-, rfl⟩
  cases outcome with
  | running =>
    rcases Prod.mk.inj (Option.some.inj hclassify) with ⟨hinfo, rfl⟩
    exact ⟨_, hm, (Except.ok.inj hinfo).symm, rfl, rfl⟩
  | exited code =>
    rcases Prod.mk.inj (Option.some.inj hclassify) with ⟨hinfo, rfl⟩
    exact ⟨_, hm, (Except.ok.inj hinfo).symm, rfl, rfl⟩
  | signaled signal =>
    rcases Prod.mk.inj (Option.some.inj hclassify) with ⟨hinfo, rfl⟩
    exact ⟨_, hm, (Except.ok.inj hinfo).symm, rfl, rfl⟩

/-- A `goto` that answers has driven the session to an event of the index. -/
theorem goto_ok (h : exec (goto arch text i reason) b = some (.ok info, b')) :
    ∃ e outcome, b.object.events[i]? = some e ∧
      Drove (runTo arch e) reason b outcome i info b' := by
  rcases bind_ok_inv h with ⟨d, b₁, hobject, hrest⟩
  rcases exec_object_inv hobject with ⟨hd, rfl⟩
  rcases Except.ok.inj hd with rfl
  split at hrest
  · cases hrest
  · rename_i e he
    rcases drove_of_ok (c := fun _ => i) hrest with ⟨outcome, hdrove⟩
    exact ⟨e, outcome, he, hdrove⟩

theorem runToEnd_ok (h : exec (ReplayBackend.runToEnd arch text) b = some (.ok info, b')) :
    ∃ outcome, Drove (Replay.runToEnd arch) "step" b outcome b.object.events.length info b' :=
  drove_of_ok (c := fun b => b.events.length) h

/-- A jump takes any seq, and looks for its event afterwards. -/
theorem jumpToEvent_ok {arguments : Value}
    (h : exec (jumpToEvent arch text arguments) b = some (.ok info, b')) :
    ∃ seq outcome, Drove (runTo arch seq) "step" b outcome
      ((rposition (fun s => s ≤ b'.object.session.currentSeq.getD 0) b.object.events).getD 0)
      info b' := by
  unfold jumpToEvent at h
  split at h
  · cases h
  · rename_i seq hseq
    have hsame : exec (do
        let outcome ← onSession text (runTo arch seq)
        modifyObject fun b => { b with cursor :=
          (rposition (fun s => s ≤ b.session.currentSeq.getD 0) b.events).getD 0 }
        classify "step" outcome : ReplayMethod ω StopInfo) b = some (.ok info, b') := h
    rcases drove_of_ok (c := fun b =>
      (rposition (fun s => s ≤ b.session.currentSeq.getD 0) b.events).getD 0) hsame
      with ⟨outcome, hdrove⟩
    exact ⟨seq, outcome, hdrove⟩

end Calls

/-! ## The invariant of a run -/

variable {arch : Arch} {M : Machine arch} {text : ReplayError → String} {laws : ForkLaws M}
  {f : World (Os M)} {events : List UInt64} {b b' : Hosted ReplayBackend (Os M)}
  {info : StopInfo} {reason : String} {i : Nat}

/-- A fresh session on a single-threaded trace whose events it gets to. -/
structure Timeline (f : World (Os M)) (events : List UInt64) : Prop where
  entry : Entry f
  single : f.session.multithreaded = false
  listed : events = (readTraceMeta f.session.records).1
  nonempty : events ≠ []
  reaches : ∀ e ∈ events, Reaches e f

/-- An event of the index is a record that is no checkpoint. -/
theorem Timeline.record (h : Timeline f events) {e : UInt64} (he : e ∈ events) :
    ∃ r ∈ f.session.records, r.event.kind ≠ .checkpoint ∧ r.seq = e := by
  rw [h.listed] at he
  rcases List.mem_map.mp he with ⟨r, hr, rfl⟩
  rcases List.mem_filter.mp hr with ⟨hmem, hkind⟩
  refine ⟨r, hmem, ?_, rfl⟩
  rw [decide_eq_true_eq] at hkind
  rw [hkind]
  decide

theorem Timeline.increasing (h : Timeline f events) : events.Pairwise (· < ·) := by
  rw [h.listed]
  exact h.entry.increasing.sublist (List.filter_sublist.map _)

/-- The session travels along the straight run, and the index follows it. -/
structure Guided (laws : ForkLaws M) (f : World (Os M)) (events : List UInt64)
    (b : Hosted ReplayBackend (Os M)) : Prop where
  traveler : Traveler laws f False (world b)
  complete : Complete f (world b)
  listed : b.object.events = events
  indexed : Indexed events b.object.session b.object.cursor

/-- Where the target has ended, every event lies behind. -/
theorem Guided.passed (hf : Timeline f events) (h : Complete f (world b))
    (hover : b.object.session.finished ≠ none) :
    ∀ e ∈ events, ∃ c, b.object.session.currentSeq = some c ∧ e ≤ c :=
  fun e he => h hover e (hf.reaches e he)

/-- The session is at the event, or the target ended on the way there. -/
theorem goto_goes (hf : Timeline f events) (h : Guided laws f events b)
    (hexec : exec (goto arch text i reason) b = some (.ok info, b')) :
    Went events reason i b.object.session info b'.object.session ∧ Guided laws f events b' := by
  -- The event is of the trace, so the straight run has a stop there or ends before it.
  rcases goto_ok hexec with ⟨e, outcome, he, hdrove⟩
  have hsession := hdrove.session
  have hevents := hdrove.events.trans h.listed
  have hcursor := hdrove.cursor
  rw [h.listed] at he
  have hmem := List.mem_of_getElem? he
  have htraveler : Traveler laws f False (world b') :=
    h.traveler.runTo hf.entry hf.single hsession
  by_cases hstay : b.object.session.finished ≠ none ∧ b.object.session.currentSeq = some e
  · -- the target ended right after this event: `run_to` does not restart
    rcases Option.ne_none_iff_exists'.mp hstay.1 with ⟨o, hover⟩
    -- The call answers what the session has already ended with.
    have hno : exec (runTo arch e) (world b) = some (.ok o, world b) :=
      runTo_over hover hstay.2 UInt64.le_rfl UInt64.le_rfl
    rw [hno] at hsession
    rcases Prod.mk.inj (Option.some.inj hsession) with ⟨hout, hworld⟩
    rcases Except.ok.inj hout with rfl
    have hsame : b'.object.session = b.object.session := (congrArg World.session hworld).symm
    have hpassed := Guided.passed hf h.complete hstay.1
    have hgone : o ≠ .running := by
      rcases h.traveler with ⟨k, -, hactive⟩
      cases hactive with
      | tracking _ _ _ unfinished => exact absurd unfinished hstay.1
      | past failed _ _ _ => exact failed.elim
      | ended finished gone _ =>
        have heq := hover.symm.trans finished
        rcases Option.some.inj heq with rfl
        exact gone
    have hlast : i + 1 = events.length := by
      have hlt := (List.getElem?_eq_some_iff.mp he).1
      by_contra hne
      have hnext : i + 1 < events.length := by omega
      rcases hpassed _ (List.getElem_mem hnext) with ⟨c, hc, hle⟩
      rw [hstay.2] at hc
      rcases Option.some.inj hc with rfl
      have hgt := lt_of_index hf.increasing (Nat.lt_succ_self i) he
        (List.getElem?_eq_getElem hnext)
      exact absurd hle (UInt64.not_le.mpr hgt)
    rcases @describe_gone reason o hgone with ⟨code, hcode⟩
    rw [hdrove.info, hcode, hsame]
    refine ⟨.stays he hstay.1 hstay.2, htraveler, ?_, hevents, ?_⟩
    · rw [← hworld]
      exact h.complete
    · rw [hcursor, hsame]
      exact .ended hover (.inr hlast) hpassed
  · have hmoved : b.object.session.finished = none ∨ b.object.session.currentSeq ≠ some e := by
      by_cases hlive : b.object.session.finished = none
      · exact .inl hlive
      · exact .inr fun hcurrent => hstay ⟨hlive, hcurrent⟩
    -- A session that is over elsewhere is past the event, so it restarts.
    have hgo : (world b).session.finished = none ∨
        ∃ c, (world b).session.currentSeq = some c ∧ e < c := by
      rcases hmoved with hlive | hne
      · exact .inl hlive
      · by_cases hlive : b.object.session.finished = none
        · exact .inl hlive
        · rcases Guided.passed hf h.complete hlive e hmem with ⟨c, hc, hle⟩
          refine .inr ⟨c, hc, ?_⟩
          rcases UInt64.lt_or_eq_of_le hle with hlt | rfl
          · exact hlt
          · exact absurd hc hne
    rcases hf.record hmem with ⟨r, hr, hkind, rfl⟩
    rcases runTo_record hf.entry hf.single h.traveler hr hkind hgo (hf.reaches _ hmem) with
      ⟨w, hrun, hlive, hcurrent⟩
    rw [hrun] at hsession
    rcases Prod.mk.inj (Option.some.inj hsession) with ⟨hout, rfl⟩
    rcases Except.ok.inj hout with rfl
    rw [hdrove.info]
    refine ⟨.stops he hmoved hlive hcurrent, htraveler, fun hover => absurd hlive hover, hevents,
      ?_⟩
    rw [hcursor]
    exact .between hlive hcurrent he UInt64.le_rfl fun j e' hj he' =>
      lt_of_index hf.increasing hj he he'

/-- The session is over, and so is the index. -/
theorem runToEnd_runs (hf : Timeline f events) (h : Guided laws f events b)
    (hexec : exec (ReplayBackend.runToEnd arch text) b = some (.ok info, b')) :
    Ran info b'.object.session ∧ Guided laws f events b' := by
  rcases runToEnd_ok hexec with ⟨outcome, hdrove⟩
  have htraveler : Traveler laws f False (world b') :=
    h.traveler.drive hf.entry hf.single hdrove.session
  have hrests := drive_rests hf.entry hf.single h.traveler h.complete hdrove.session
  have hcomplete := hrests.complete
  cases hrests with
  | stopped _ reached => cases reached
  | ended finished gone furthest =>
    constructor
    · refine ⟨point_over finished, ?_⟩
      rw [hdrove.info]
      exact describe_gone gone
    · refine ⟨htraveler, hcomplete, hdrove.events.trans h.listed, ?_⟩
      rw [hdrove.cursor, h.listed]
      exact .ended finished (.inl rfl) fun e he => furthest e (hf.reaches e he)

/-- A jump leaves the index at the last event not after where it landed. -/
theorem indexed_jump (hf : Timeline f events) {t : UInt64} {outcome : ExitOutcome}
    {w : World (Os M)} (h : AtRest f (some t) outcome w) :
    Indexed events w.session
      ((rposition (fun s => s ≤ w.session.currentSeq.getD 0) events).getD 0) := by
  cases h with
  | stopped unfinished reached =>
    cases hq : w.session.currentSeq with
    | none => simp [atTarget, Replay.reached, hq] at reached
    | some q =>
      cases hi : rposition (fun s => s ≤ (some q).getD 0) events with
      | none =>
        refine .before unfinished ?_
        intro c hc e he
        rw [hq] at hc
        rcases Option.some.inj hc with rfl
        simpa using rposition_none hi e he
      | some i =>
        rcases rposition_some hi with ⟨⟨e, he, hle⟩, hafter⟩
        refine .between unfinished hq he (by simpa using hle) ?_
        intro j e' hj he'
        simpa using hafter j e' hj he'
  | ended finished _ furthest =>
    have hpassed : ∀ e ∈ events, ∃ c, w.session.currentSeq = some c ∧ e ≤ c :=
      fun e he => furthest e (hf.reaches e he)
    refine .ended finished (.inr ?_) hpassed
    -- every event passes the test, so the index is the last one
    have hall : ∀ e ∈ events, decide (e ≤ w.session.currentSeq.getD 0) = true := by
      intro e he
      rcases hpassed e he with ⟨c, hc, hle⟩
      simpa [hc] using hle
    cases hi : rposition (fun s => s ≤ w.session.currentSeq.getD 0) events with
    | none =>
      rcases List.exists_mem_of_ne_nil events hf.nonempty with ⟨e, he⟩
      have hfail := rposition_none hi e he
      rw [hall e he] at hfail
      cases hfail
    | some i =>
      rcases rposition_some hi with ⟨⟨e, he, -⟩, hafter⟩
      have hlt := (List.getElem?_eq_some_iff.mp he).1
      show i + 1 = events.length
      by_contra hne
      have hnext : i + 1 < events.length := by omega
      have hfail := hafter (i + 1) _ (Nat.lt_succ_self i) (List.getElem?_eq_getElem hnext)
      rw [hall _ (List.getElem_mem hnext)] at hfail
      cases hfail

/-- A jump leaves the cursor at the last event that is not after the session. -/
theorem jumpToEvent_guided (hf : Timeline f events) (h : Guided laws f events b) {arguments : Value}
    (hexec : exec (jumpToEvent arch text arguments) b = some (.ok info, b')) :
    Guided laws f events b' := by
  rcases jumpToEvent_ok hexec with ⟨seq, outcome, hdrove⟩
  have hrests := runTo_rests hf.entry hf.single h.traveler h.complete hdrove.session
  refine ⟨h.traveler.runTo hf.entry hf.single hdrove.session, hrests.complete,
    hdrove.events.trans h.listed, ?_⟩
  rw [hdrove.cursor, h.listed]
  exact indexed_jump hf hrests

/-! ## Runs -/

/-- A step forward goes on to the next event, or to the end. -/
theorem stepOn_goes (hf : Timeline f events) (h : Guided laws f events b)
    (hexec : exec (do
      let b ← object
      if b.events.length ≤ b.cursor + 1 then ReplayBackend.runToEnd arch text
      else goto arch text (b.cursor + 1) "step" : ReplayMethod (Os M) StopInfo) b =
        some (.ok info, b')) :
    WentOn events b.object.cursor b.object.session info b'.object.session ∧
      Guided laws f events b' := by
  rcases bind_ok_inv hexec with ⟨d, b₁, hobject, hrest⟩
  rcases exec_object_inv hobject with ⟨hd, rfl⟩
  rcases Except.ok.inj hd with rfl
  rw [h.listed] at hrest
  unfold WentOn
  split at hrest
  · rename_i hlast
    rw [if_pos hlast]
    exact runToEnd_runs hf h hrest
  · rename_i hlast
    rw [if_neg hlast]
    exact goto_goes hf h hrest

/-- One call: the invariant is kept, and a step is right just where it is guarded. -/
theorem move_steps (hf : Timeline f events) (h : Guided laws f events b) {c : MoveCall}
    (hexec : exec (move arch text c) b = some (.ok info, b')) :
    Guided laws f events b' ∧
      (Step.Follows events ⟨b, c, info, b'⟩ ↔ Step.Guarded events ⟨b, c, info, b'⟩) := by
  have hfirst {reason : String} (hgo : exec (do
      let b ← object
      if b.events.isEmpty then ReplayBackend.runToEnd arch text
      else goto arch text 0 reason : ReplayMethod (Os M) StopInfo) b = some (.ok info, b')) :
      Guided laws f events b' := by
    rcases bind_ok_inv hgo with ⟨d, b₁, hobject, hrest⟩
    rcases exec_object_inv hobject with ⟨hd, rfl⟩
    rcases Except.ok.inj hd with rfl
    split at hrest
    · exact (runToEnd_runs hf h hrest).2
    · exact (goto_goes hf h hrest).2
  -- A step is the only call whose aim depends on where the index stands.
  cases c with
  | launch arguments => exact ⟨hfirst hexec, Iff.rfl⟩
  | jumpToEvent arguments => exact ⟨jumpToEvent_guided hf h hexec, Iff.rfl⟩
  | resume kind =>
    cases kind with
    | «continue» => exact ⟨(runToEnd_runs hf h hexec).2, Iff.rfl⟩
    | reverseContinue => exact ⟨hfirst hexec, Iff.rfl⟩
    | stepBack =>
      rcases bind_ok_inv hexec with ⟨d, b₁, hobject, hrest⟩
      rcases exec_object_inv hobject with ⟨hd, rfl⟩
      rcases Except.ok.inj hd with rfl
      split at hrest
      · cases hrest
      · rcases goto_goes hf h hrest with ⟨hwent, hguided⟩
        exact ⟨hguided, stepsBack_iff hf.increasing h.indexed hwent⟩
    | next =>
      rcases stepOn_goes hf h hexec with ⟨hwent, hguided⟩
      exact ⟨hguided, stepsOn_iff hf.increasing hf.nonempty h.indexed hwent⟩
    | stepIn =>
      rcases stepOn_goes hf h hexec with ⟨hwent, hguided⟩
      exact ⟨hguided, stepsOn_iff hf.increasing hf.nonempty h.indexed hwent⟩
    | stepOut =>
      rcases stepOn_goes hf h hexec with ⟨hwent, hguided⟩
      exact ⟨hguided, stepsOn_iff hf.increasing hf.nonempty h.indexed hwent⟩

section Traces

variable {cmdline : Cmdline} {records : List Record} {steps : List (Step (Os M))}

/-- A backend that was opened is at the start of the timeline. -/
theorem open_guided (laws : ForkLaws M) (hseq : Increasing records)
    (hsingle : traceIsMultithreaded records = false) (hevents : (readTraceMeta records).1 ≠ [])
    (hreplays : Replays M cmdline records) {interval : UInt64} {host host' : Os M}
    {d : ReplayBackend}
    (h : ReplayBackend.open arch text cmdline records interval host = some (.ok d, host')) :
    ∃ f, Timeline f (readTraceMeta records).1 ∧
      Guided laws f (readTraceMeta records).1 ⟨d, host'⟩ := by
  unfold ReplayBackend.open at h
  dsimp only at h
  split at h
  · cases h
  · cases h
  · rename_i w hspawn
    rcases Prod.mk.inj (Option.some.inj h) with ⟨hd, rfl⟩
    rcases Except.ok.inj hd with rfl
    rcases bind_ok_inv hspawn with ⟨u, f, hlaunch, hset⟩
    rcases Prod.mk.inj (Option.some.inj hset) with ⟨-, rfl⟩
    -- The backend is opened on a session that was just launched.
    have hlaunched := launch_launched hlaunch
    rcases hlaunched.session with ⟨pid, hsession⟩
    have hrecords : f.session.records = records := by rw [hsession]; rfl
    have hunfinished : f.session.finished = none := by rw [hsession]; rfl
    have hcurrent : f.session.currentSeq = none := by rw [hsession]; rfl
    refine ⟨f, ?_, ?_⟩
    · exact
        { entry := hlaunched.entry hseq
          single := by
            rw [hsession]
            exact hsingle
          listed := by rw [hrecords]
          nonempty := hevents
          reaches := hreplays _ f hlaunch }
    · have htraveler : Traveler laws f False f := hlaunched.traveler hlaunched
      refine ⟨?_, fun hover => absurd hunfinished hover, rfl, .before hunfinished ?_⟩
      · exact htraveler.resembling { Resembles.refl f.session with } htraveler.unwatched
          htraveler.armed
      · intro q hq
        rw [hcurrent] at hq
        cases hq

end Traces

/-! ## Debugging the program of one call -/

/-- The trace of the program of one call: a `SyscallEnter` with seq 0, a `SyscallExit` with
seq 1 and the signal that kills it. -/
def oneCallRecords : List Record := Trace.storedRecords 0 oneCallEvents

/-- A fresh session on the program gets to its event. -/
theorem oneCall_replays : Replays oneCall ⟨"true", []⟩ oneCallRecords := by
  intro os f hlaunch e he
  rcases oneCall_opened with ⟨bytes, hopen⟩
  rcases oneCall_ends with ⟨w, -, -, hhistory, hover, hcurrent⟩
  have hlaunched := launch_launched hlaunch
  have hsingle : f.session.multithreaded = false := by
    rcases hlaunched.session with ⟨pid, hsession⟩
    rw [hsession]
    rfl
  have htraveler : Traveler oneCallLaws f False w :=
    hhistory.traveler (fun _ _ _ hc => ⟨.inl hc.1, .inl hc.2, fun h _ => h.driveable⟩)
      hopen.increasing rfl hlaunched
  refine reaches_of_over (hlaunched.entry hopen.increasing) hsingle htraveler hover hcurrent ?_
  have hlist : (readTraceMeta oneCallRecords).1 = [1] := rfl
  rw [hlist] at he
  rcases List.mem_singleton.mp he with rfl
  decide

/-- A session on the program, opened by the backend, round by round: at seq 0, at seq 1, over. -/
theorem oneCall_rounds :
    ∃ (b : Hosted ReplayBackend (Os oneCall)) (w₁ w₂ w₃ : World (Os oneCall)),
      ReplayBackend.open .x86_64 (fun _ => "") ⟨"true", []⟩ oneCallRecords 0 (emptyOs oneCall) =
        some (.ok b.object, b.host) ∧
      (exec (runTo .x86_64 0) (world b) = some (.ok .running, w₁) ∧
        exec (runTo .x86_64 1) (world b) = some (.ok .running, w₂) ∧
        exec (runTo .x86_64 1) w₂ = some (.ok .running, w₂) ∧
        exec (Replay.runToEnd .x86_64) w₁ = some (.ok (.signaled 4), w₃)) ∧
      b.object.events = [1] ∧ b.object.cursor = 0 ∧ w₁.session.currentSeq = some 0 ∧
      point w₁.session = .stop 0 ∧ point w₂.session = .stop 1 ∧ point w₃.session = .ended := by
  have hrun : ∃ (b : Hosted ReplayBackend (Os oneCall)) (w₁ w₂ w' w₃ : World (Os oneCall)),
      (ReplayBackend.open .x86_64 (fun _ => "") ⟨"true", []⟩ oneCallRecords 0 (emptyOs oneCall) =
        some (.ok b.object, b.host) ∧ b.object.events = [1] ∧ b.object.cursor = 0) ∧
      (exec (driveRound .x86_64 (some 0)) (world b) = some (.ok none, w₁) ∧
        exec (driveRound .x86_64 (some 0)) w₁ = some (.ok (some .running), w₁)) ∧
      (exec (driveRound .x86_64 (some 1)) (world b) = some (.ok none, w₁) ∧
        exec (driveRound .x86_64 (some 1)) w₁ = some (.ok none, w₂) ∧
        exec (driveRound .x86_64 (some 1)) w₂ = some (.ok (some .running), w₂)) ∧
      (exec (driveRound .x86_64 none) w₁ = some (.ok none, w₂) ∧
        exec (driveRound .x86_64 none) w₂ = some (.ok none, w') ∧
        exec (driveRound .x86_64 none) w' = some (.ok (some (.signaled 4)), w₃)) ∧
      ((world b).session.finished = none ∧ (world b).session.multithreaded = false) ∧
      (w₁.session.finished = none ∧ w₁.session.multithreaded = false) ∧
      (w₂.session.finished = none ∧ w₂.session.multithreaded = false) ∧
      (∀ t, shouldRestart (world b).session.currentSeq (planStart (world b).session t).seq t =
        false) ∧
      shouldRestart w₂.session.currentSeq (planStart w₂.session 1).seq 1 = false ∧
      w₁.session.currentSeq = some 0 ∧
      point w₁.session = .stop 0 ∧ point w₂.session = .stop 1 ∧ point w₃.session = .ended :=
    ⟨⟨_, _⟩, _, _, _, _, ⟨rfl, rfl, rfl⟩, ⟨rfl, rfl⟩, ⟨rfl, rfl, rfl⟩, ⟨rfl, rfl, rfl⟩,
      ⟨rfl, rfl⟩, ⟨rfl, rfl⟩, ⟨rfl, rfl⟩, fun _ => rfl, rfl, rfl, rfl, rfl, rfl⟩
  rcases hrun with ⟨b, w₁, w₂, w', w₃, ⟨hopen, hevents, hcursor⟩, ⟨hfirst, hstop⟩,
    ⟨hgo, hgo', hstop'⟩, ⟨hon, hsignal, hend⟩, ⟨hlive, hsingle⟩, ⟨hlive₁, hsingle₁⟩, ⟨hlive₂, hsingle₂⟩,
    hfresh, hhere, hcurrent, hpoint₁, hpoint₂, hpoint₃⟩
  refine ⟨b, w₁, w₂, w₃, hopen, ⟨?_, ?_, ?_, ?_⟩, hevents, hcursor, hcurrent, hpoint₁, hpoint₂,
    hpoint₃⟩
  · rw [exec_runTo_drive (hfresh 0), exec_drive_single hlive hsingle]
    exact loop_returns (.succ hfirst (.zero w₁)) (.inl ⟨_, hstop, rfl⟩)
  · rw [exec_runTo_drive (hfresh 1), exec_drive_single hlive hsingle]
    exact loop_returns (.succ hgo (.succ hgo' (.zero w₂))) (.inl ⟨_, hstop', rfl⟩)
  · rw [exec_runTo_drive hhere, exec_drive_single hlive₂ hsingle₂]
    exact loop_returns (.zero w₂) (.inl ⟨_, hstop', rfl⟩)
  · have hloop : exec (loop (driveRound .x86_64 none)) w₁ = some (.ok (.signaled 4), w₃) :=
      loop_returns (.succ hon (.succ hsignal (.zero w'))) (.inl ⟨_, hend, rfl⟩)
    rwa [← exec_drive_single hlive₁ hsingle₁] at hloop

/-- A backend whose session was driven somewhere. -/
def drivenTo (b : Hosted ReplayBackend (Os M)) (w : World (Os M)) (cursor : Nat)
    (exited : Option Int32) : Hosted ReplayBackend (Os M) :=
  ⟨{ b.object with session := w.session, cursor, exited }, w.os⟩

end Mirrorscope.Dap
