import Mirrorscope.Dap.Server

/-! # One answer for every request

A run of the server is observed through a log of what reaches the client, with the
failures of the backend in between. Every request is answered by one exchange: notes, one
response, and the events that follow it, or notes and then a failure that is shown to the
client before it is answered. The exchanges of a run make up its log.
-/

namespace Mirrorscope.Dap

open Run (Hosted)

variable {β ω α : Type}

/-! ## Observing a run -/

/-- Something that happened while the server ran: a backend method failed, a recording could
not be opened, or a message was written. -/
inductive Deed where
  | failed (message : String)
  | notOpened (message : String)
  | wrote (message : Value)

namespace Deed

/-- The message a deed wrote. -/
def message : Deed → Option Value
  | .wrote message => some message
  | _ => none

end Deed

/-- A system with a log. -/
structure Logged (ω : Type) where
  host : ω
  log : List Deed

namespace Logged

/-- A writer that never fails. -/
instance frameWriter : FrameWriter (Logged ω) where
  writeFrame message w := (.ok (), { w with log := w.log ++ [.wrote message] })

/-- A method whose failure is logged. -/
def method (m : BackendMethod β ω α) : BackendMethod β (Logged ω) α := fun w =>
  match m ⟨w.object, w.host.host⟩ with
  | .ok a v => .ok a ⟨v.object, { w.host with host := v.host }⟩
  | .error e v => .error e ⟨v.object, ⟨v.host, w.host.log ++ [.failed e.toString]⟩⟩

/-- Open a recording, with the refusal logged. -/
def select [DebugBackend β ω] (trace : String) (interval : UInt64) (w : Logged ω) :
    Except String (Option β) × Logged ω :=
  match DebugBackend.selectReplayBackend trace interval w.host with
  | (.ok backend, host) => (.ok backend, { w with host })
  | (.error message, host) => (.error message, ⟨host, w.log ++ [.notOpened message]⟩)

/-- The backends of a system, observed. -/
instance debugBackend [DebugBackend β ω] : DebugBackend β (Logged ω) where
  launch arguments := method (DebugBackend.launch arguments)
  threads := method DebugBackend.threads
  stackTrace arguments := method (DebugBackend.stackTrace arguments)
  scopes arguments := method (DebugBackend.scopes arguments)
  «variables» arguments := method (DebugBackend.«variables» arguments)
  resume kind := method (DebugBackend.resume kind)
  listCheckpoints := method DebugBackend.listCheckpoints
  taskTimeline := method DebugBackend.taskTimeline
  jumpToEvent arguments := method (DebugBackend.jumpToEvent arguments)
  checkpointNote := DebugBackend.checkpointNote ω
  selectReplayBackend := select

end Logged

/-- A server that has served nothing, in a system with an empty log. -/
def fresh (backend : β) (host : ω) : Hosted (Server β) (Logged ω) :=
  ⟨Server.new backend, ⟨host, []⟩⟩

/-- The messages a log has. -/
def messages (log : List Deed) : List Value := log.filterMap Deed.message

/-- The messages that are responses. -/
def responses (log : List Deed) : List Value := (messages log).filter isResponse

/-! ## Exchanges -/

/-- A failure as the client is told of it: an output event with the message, then at once a
failure response with the same message. -/
def Told (request : Request) (message : String) (deeds : List Deed) : Prop :=
  ∃ seq, deeds =
    [.wrote (event seq "output" (Server.outputBody message)),
      .wrote (failure (seq + 1) request message)]

/-- The deeds report no stop of the target. -/
def NoStop (deeds : List Deed) : Prop :=
  ∀ message ∈ messages deeds, ¬ IsEvent "stopped" message ∧ ¬ IsEvent "exited" message

/-- What the server does for one request. -/
structure Answered (request : Request) (s : Server β) (deeds : List Deed) (s' : Server β) :
    Prop where
  once : ∃ response, responses deeds = [response] ∧ Echoes request response
  failed : ∀ message before after, deeds = before ++ .failed message :: after →
    Told request message after ∧ NoStop deeds
  notOpened : ∀ message before after, deeds = before ++ .notOpened message :: after →
    Told request message after ∧ NoStop deeds ∧ s'.backend = s.backend
  disconnect : request.command = "disconnect" →
    ∃ seq body, deeds = [.wrote (success seq request body)]

/-- The requests of a run, each answered in turn, and nothing else done. -/
inductive Conversation : Server β → List Request → List Deed → Server β → Prop where
  | silence (s : Server β) : Conversation s [] [] s
  | next {s s' s'' : Server β} {request : Request} {requests : List Request}
      {deeds rest : List Deed} :
      Answered request s deeds s' → Conversation s' requests rest s'' →
      Conversation s (request :: requests) (deeds ++ rest) s''

/-! ## Scripts

What a handler writes once it knows its answer, before the messages are numbered.
-/

/-- A message of a handler, without its number. -/
inductive Line where
  | success (body : Value)
  | failure (message : String)
  | event (name : String) (body : Value)

namespace Line

def message (request : Request) (seq : UInt64) : Line → Value
  | .success body => Dap.success seq request body
  | .failure message => Dap.failure seq request message
  | .event name body => Dap.event seq name body

/-- The line is an event. -/
def IsEvent : Line → Prop
  | .event _ _ => True
  | _ => False

/-- The line reports a stop of the target. -/
def IsStop : Line → Prop
  | .event name _ => name = "stopped" ∨ name = "exited"
  | _ => False

end Line

/-- The lines in order, numbered from `seq + 1`. -/
def written (request : Request) : UInt64 → List Line → List Deed
  | _, [] => []
  | seq, line :: lines =>
    .wrote (line.message request (seq + 1)) :: written request (seq + 1) lines

/-- The state after the server has written the lines. -/
def speak (request : Request) (lines : List Line) (w : Hosted (Server β) (Logged ω)) :
    Hosted (Server β) (Logged ω) where
  object := { w.object with nextSeq := w.object.nextSeq + UInt64.ofNat lines.length }
  host := { w.host with log := w.host.log ++ written request w.object.nextSeq lines }

/-- The lines that show a failure to the client. -/
def failureLines (message : String) : List Line :=
  [.event "output" (Server.outputBody message), .failure message]

theorem seq_add_succ (seq : UInt64) (n : Nat) :
    seq + 1 + UInt64.ofNat n = seq + UInt64.ofNat (n + 1) := by
  rw [UInt64.ofNat_add, UInt64.add_assoc, UInt64.add_comm 1]
  rfl

theorem written_append (request : Request) (seq : UInt64) (first second : List Line) :
    written request seq (first ++ second) =
      written request seq first ++
        written request (seq + UInt64.ofNat first.length) second := by
  induction first generalizing seq with
  | nil => simp [written]
  | cons line lines ih =>
    simp only [List.cons_append, written, ih, List.length_cons, seq_add_succ]

theorem speak_speak (request : Request) (first second : List Line)
    (w : Hosted (Server β) (Logged ω)) :
    speak request second (speak request first w) = speak request (first ++ second) w := by
  simp only [speak, written_append, List.length_append, UInt64.ofNat_add, UInt64.add_assoc,
    List.append_assoc]

/-- The messages of a script carry consecutive numbers. -/
theorem message_seq (request : Request) (seq : UInt64) (line : Line) :
    (line.message request seq).get "seq" = some (.ofU64 seq) := by
  cases line <;> rfl

theorem isResponse_message (request : Request) (seq : UInt64) (line : Line) :
    isResponse (line.message request seq) = true ↔ ¬ line.IsEvent := by
  cases line <;> simp [Line.IsEvent] <;> rfl

/-! ### Handlers write scripts -/

theorem respondSuccess_speak (request : Request) (body : Value)
    (w : Hosted (Server β) (Logged ω)) :
    Server.respondSuccess request body w = .ok () (speak request [.success body] w) := rfl

theorem respondFailure_speak (request : Request) (message : String)
    (w : Hosted (Server β) (Logged ω)) :
    Server.respondFailure request message w = .ok () (speak request [.failure message] w) := rfl

theorem emitEvent_speak (request : Request) (name : String) (body : Value)
    (w : Hosted (Server β) (Logged ω)) :
    Server.emitEvent name body w = .ok () (speak request [.event name body] w) := rfl

/-- Two scripts one after the other. -/
theorem speak_then {first second : ServerMethod β (Logged ω) Unit} {request : Request}
    {lines lines' : List Line} {w : Hosted (Server β) (Logged ω)}
    (hfirst : first w = .ok () (speak request lines w))
    (hsecond : ∀ w, second w = .ok () (speak request lines' w)) :
    (first >>= fun _ => second) w = .ok () (speak request (lines ++ lines') w) := by
  rw [Effect.bind_ok hfirst, hsecond, speak_speak]

theorem fail_speak (request : Request) (error : BackendError)
    (w : Hosted (Server β) (Logged ω)) :
    Server.fail request error w = .ok () (speak request (failureLines error.toString) w) :=
  speak_then (emitEvent_speak request "output" (Server.outputBody error.toString) w)
    (respondFailure_speak request error.toString)

/-- The lines a stop is reported by. -/
def stopLines : StopInfo → List Line
  | .stopped reason threadId =>
    [.event "stopped" (.object [("reason", .string reason), ("threadId", .ofU64 threadId),
      ("allThreadsStopped", .bool true)])]
  | .exited code =>
    [.event "exited" (.object [("exitCode", .number (.ofInt code))]),
      .event "terminated" (.object [])]

theorem stopLines_isEvent (stop : StopInfo) : ∀ line ∈ stopLines stop, line.IsEvent := by
  cases stop <;> simp [stopLines, Line.IsEvent]

theorem emitStop_speak (request : Request) (stop : StopInfo)
    (w : Hosted (Server β) (Logged ω)) :
    Server.emitStop stop w = .ok () (speak request (stopLines stop) w) := by
  cases stop with
  | stopped reason threadId => exact emitEvent_speak request _ _ w
  | exited code =>
    exact speak_then (emitEvent_speak request "exited" _ w)
      (emitEvent_speak request "terminated" (.object []))

/-! ## The exchange of a request -/

/-- An exchange: notes, one response and events, or notes and a failure that is shown and
then answered. -/
inductive Exchange (request : Request) (s : Server β) : List Deed → Server β → Prop where
  | reply {notes events : List Line} {line : Line} {s' : Server β} :
      (∀ note ∈ notes, note.IsEvent) → ¬ line.IsEvent → (∀ event ∈ events, event.IsEvent) →
      (request.command = "disconnect" →
        notes = [] ∧ events = [] ∧ ∃ body, line = .success body) →
      s'.nextSeq = s.nextSeq + UInt64.ofNat (notes ++ line :: events).length →
      Exchange request s (written request s.nextSeq (notes ++ line :: events)) s'
  | refused {notes : List Line} {mark : Deed} {message : String} {s' : Server β} :
      mark = .failed message ∨ mark = .notOpened message ∧ s'.backend = s.backend →
      (∀ note ∈ notes, note.IsEvent ∧ ¬ note.IsStop) → request.command ≠ "disconnect" →
      s'.nextSeq = s.nextSeq + UInt64.ofNat (notes ++ failureLines message).length →
      Exchange request s
        (written request s.nextSeq notes ++
          mark :: written request (s.nextSeq + UInt64.ofNat notes.length) (failureLines message))
        s'

/-- The method carries out an exchange for the request, from any state. -/
def Exchanges (request : Request) (m : ServerMethod β (Logged ω) Unit) : Prop :=
  ∀ w, ∃ deeds w', m w = .ok () w' ∧ w'.host.log = w.host.log ++ deeds ∧
    Exchange request w.object deeds w'.object

/-- A handler that only writes. -/
theorem exchanges_of_speak {request : Request} {m : ServerMethod β (Logged ω) Unit}
    {line : Line} {events : List Line}
    (hm : ∀ w, m w = .ok () (speak request (line :: events) w))
    (hline : ¬ line.IsEvent) (hevents : ∀ event ∈ events, event.IsEvent)
    (hquiet : request.command = "disconnect" → events = [] ∧ ∃ body, line = .success body) :
    Exchanges request m := by
  intro w
  refine ⟨_, _, hm w, rfl, ?_⟩
  exact @Exchange.reply β request w.object [] events line _ (by simp) hline hevents
    (fun h => ⟨rfl, hquiet h⟩) rfl

/-- What is done with the answer of the backend: a success and events, or the failure shown
and answered. -/
structure Relays (request : Request) (k : Except BackendError α → ServerMethod β (Logged ω) Unit) :
    Prop where
  ok : ∀ a w, ∃ body events, (∀ event ∈ events, event.IsEvent) ∧
    k (.ok a) w = .ok () (speak request (.success body :: events) w)
  error : ∀ e w, k (.error e) w = .ok () (speak request (failureLines e.toString) w)

/-- A handler that asks the backend, after it has written notes. `s` is the server before the
notes; a recording may have been put in place since. -/
theorem Relays.exchange {request : Request}
    {k : Except BackendError α → ServerMethod β (Logged ω) Unit} (hk : Relays request k)
    (hcommand : request.command ≠ "disconnect") {s : Server β} {notes : List Line}
    (hnotes : ∀ note ∈ notes, note.IsEvent ∧ ¬ note.IsStop) (m : BackendMethod β ω α)
    (w : Hosted (Server β) (Logged ω))
    (hseq : w.object.nextSeq = s.nextSeq + UInt64.ofNat notes.length) :
    ∃ deeds w', (Server.asks (Logged.method m) >>= k) w = .ok () w' ∧
      w'.host.log = w.host.log ++ deeds ∧
      Exchange request s (written request s.nextSeq notes ++ deeds) w'.object := by
  cases hm : m ⟨w.object.backend, w.host.host⟩ with
  | ok a v =>
    have hasks : Server.asks (Logged.method m) w =
        .ok (.ok a) ⟨{ w.object with backend := v.object }, { w.host with host := v.host }⟩ := by
      simp [Server.asks, Logged.method, hm]
    obtain ⟨body, events, hevents, hrun⟩ :=
      hk.ok a ⟨{ w.object with backend := v.object }, { w.host with host := v.host }⟩
    refine ⟨_, _, (Effect.bind_ok hasks).trans hrun, rfl, ?_⟩
    have hwritten := written_append request s.nextSeq notes (.success body :: events)
    simp only [hseq, ← hwritten]
    apply Exchange.reply (fun note h => (hnotes note h).1) (by simp [Line.IsEvent]) hevents
      (fun h => absurd h hcommand)
    simp [speak, UInt64.add_assoc]
  | error e v =>
    have hasks : Server.asks (Logged.method m) w =
        .ok (.error e) ⟨{ w.object with backend := v.object },
          ⟨v.host, w.host.log ++ [.failed e.toString]⟩⟩ := by
      simp [Server.asks, Logged.method, hm]
    refine ⟨.failed e.toString :: written request w.object.nextSeq (failureLines e.toString), _,
      (Effect.bind_ok hasks).trans (hk.error e _), by simp [speak], ?_⟩
    rw [hseq]
    apply Exchange.refused (.inl rfl) hnotes hcommand
    simp [speak, hseq, UInt64.add_assoc]

theorem Relays.exchanges {request : Request}
    {k : Except BackendError α → ServerMethod β (Logged ω) Unit} (hk : Relays request k)
    (hcommand : request.command ≠ "disconnect") (m : BackendMethod β ω α) :
    Exchanges request (Server.asks (Logged.method m) >>= k) := by
  intro w
  exact hk.exchange hcommand (List.forall_mem_nil _) m w (UInt64.add_zero _).symm

theorem answer_relays (request : Request) :
    Relays request (Server.answer request : _ → ServerMethod β (Logged ω) Unit) where
  ok body w := ⟨body, [], by simp, respondSuccess_speak request body w⟩
  error e w := fail_speak request e w

theorem onInitialize_exchanges {request : Request} (h : request.command = "initialize") :
    Exchanges request (Server.onInitialize request : ServerMethod β (Logged ω) Unit) := by
  apply exchanges_of_speak
  · intro w
    exact speak_then (respondSuccess_speak request _ w)
      (emitEvent_speak request "initialized" (.object []))
  · simp [Line.IsEvent]
  · simp [Line.IsEvent]
  · simp [h]

/-- A request that is only acknowledged. -/
theorem respondSuccess_exchanges (request : Request) (body : Value) :
    Exchanges request (Server.respondSuccess request body : ServerMethod β (Logged ω) Unit) :=
  exchanges_of_speak (respondSuccess_speak request body) (by simp [Line.IsEvent]) (by simp)
    (fun _ => ⟨rfl, body, rfl⟩)

theorem respondFailure_exchanges {request : Request}
    (hcommand : request.command ≠ "disconnect") (message : String) :
    Exchanges request (Server.respondFailure request message : ServerMethod β (Logged ω) Unit) :=
  exchanges_of_speak (respondFailure_speak request message) (by simp [Line.IsEvent]) (by simp)
    (fun h => absurd h hcommand)

section Handlers

variable [DebugBackend β ω]

theorem onResume_exchanges {request : Request} (hcommand : request.command ≠ "disconnect")
    (kind : ResumeKind) :
    Exchanges request (Server.onResume request kind : ServerMethod β (Logged ω) Unit) := by
  apply Relays.exchanges _ hcommand
  constructor
  · intro stop w
    exact ⟨_, stopLines stop, stopLines_isEvent stop,
      speak_then (respondSuccess_speak request _ w) (emitStop_speak request stop)⟩
  · exact fail_speak request

theorem onJump_exchanges {request : Request} (hcommand : request.command ≠ "disconnect") :
    Exchanges request (Server.onJump request : ServerMethod β (Logged ω) Unit) := by
  apply Relays.exchanges _ hcommand
  constructor
  · intro stop w
    exact ⟨_, stopLines stop, stopLines_isEvent stop,
      speak_then (respondSuccess_speak request _ w) (emitStop_speak request stop)⟩
  · exact fail_speak request

/-- The events that follow a successful launch. -/
def launchLines (note : Option String) (stop : StopInfo) : List Line :=
  (note.toList.map fun note => .event "output" (Server.outputBody note)) ++ stopLines stop

theorem launchLines_isEvent (note : Option String) (stop : StopInfo) :
    ∀ line ∈ launchLines note stop, line.IsEvent := by
  intro line hline
  rcases List.mem_append.mp hline with hnote | hstop
  · cases note with
    | none => cases hnote
    | some note => simp_all [Line.IsEvent]
  · exact stopLines_isEvent stop line hstop

theorem launched_speak (request : Request) (stop : StopInfo)
    (w : Hosted (Server β) (Logged ω)) :
    Server.launched request (.ok stop) w = .ok () (speak request (.success (.object []) ::
      launchLines (DebugBackend.checkpointNote (Logged ω) w.object.backend) stop) w) := by
  refine (Effect.bind_ok (respondSuccess_speak request (.object []) w)).trans ?_
  -- writing the response leaves the backend alone, so the note is the one it had before
  have hsame : (speak request [.success (.object [])] w).object.backend = w.object.backend := rfl
  rw [Effect.run_bind, Effect.run_get]
  dsimp only
  rw [hsame]
  cases DebugBackend.checkpointNote (Logged ω) w.object.backend with
  | none => exact (emitStop_speak request stop _).trans (by rw [speak_speak]; rfl)
  | some note =>
    have hnote := emitEvent_speak request "output" (Server.outputBody note)
      (speak request [.success (.object [])] w)
    exact (speak_then hnote (emitStop_speak request stop)).trans (by rw [speak_speak]; rfl)

theorem launched_relays (request : Request) :
    Relays request (Server.launched request : _ → ServerMethod β (Logged ω) Unit) where
  ok stop w := ⟨_, _, launchLines_isEvent _ stop, launched_speak request stop w⟩
  error e w := fail_speak request e w

theorem selectReplayBackend_logged (trace : String) (interval : UInt64)
    (w : Hosted (Server β) (Logged ω)) :
    Server.selectReplayBackend trace interval w =
      .ok (Logged.select trace interval w.host : Except String (Option β) × Logged ω).1
        { w with
          host := (Logged.select trace interval w.host : Except String (Option β) × _).2 } := rfl

theorem select_ok {trace : String} {interval : UInt64} {opened : Option β} {host : ω}
    {w : Hosted (Server β) (Logged ω)}
    (h : DebugBackend.selectReplayBackend trace interval w.host.host = (.ok opened, host)) :
    Server.selectReplayBackend trace interval w =
      .ok (.ok opened) { w with host := { w.host with host } } := by
  have hselect : Logged.select trace interval w.host = (.ok opened, ⟨host, w.host.log⟩) := by
    simp only [Logged.select, h]
  rw [selectReplayBackend_logged, hselect]

theorem select_error {trace : String} {interval : UInt64} {message : String} {host : ω}
    {w : Hosted (Server β) (Logged ω)}
    (h : (DebugBackend.selectReplayBackend trace interval w.host.host :
      Except String (Option β) × ω) = (.error message, host)) :
    Server.selectReplayBackend trace interval w =
      .ok (.error message : Except String (Option β))
        ⟨w.object, ⟨host, w.host.log ++ [.notOpened message]⟩⟩ := by
  have hselect : (Logged.select trace interval w.host : Except String (Option β) × Logged ω) =
      (.error message, ⟨host, w.host.log ++ [.notOpened message]⟩) := by
    simp only [Logged.select, h]
  rw [selectReplayBackend_logged, hselect]

/-- A recording that opens, or a platform without the replay engine. -/
theorem launchSelected_exchange {request : Request} (hcommand : request.command ≠ "disconnect")
    (opened : Option β) (w : Hosted (Server β) (Logged ω)) :
    ∃ deeds w', Server.launchSelected request (.ok opened) w = .ok () w' ∧
      w'.host.log = w.host.log ++ deeds ∧ Exchange request w.object deeds w'.object := by
  have hlaunch := launched_relays (ω := ω) (β := β) request
  cases opened with
  | some backend =>
    exact hlaunch.exchange hcommand (List.forall_mem_nil _)
      (DebugBackend.launch request.arguments) ⟨{ w.object with backend }, w.host⟩
      (UInt64.add_zero _).symm
  | none =>
    have hnote := emitEvent_speak request "output" (Server.outputBody
      "replay backend unavailable on this platform; serving the stub target") w
    have hnotes : ∀ note ∈ [Line.event "output" (Server.outputBody
        "replay backend unavailable on this platform; serving the stub target")],
        note.IsEvent ∧ ¬ note.IsStop := by
      simp [Line.IsEvent, Line.IsStop]
    obtain ⟨deeds, w', hrun, hlog, hexchange⟩ := hlaunch.exchange hcommand (s := w.object)
      hnotes (DebugBackend.launch request.arguments) (speak request _ w) rfl
    refine ⟨_, w', (Effect.bind_ok hnote).trans hrun, ?_, hexchange⟩
    rw [hlog]
    simp [speak]

theorem onLaunch_exchanges {request : Request} (hcommand : request.command ≠ "disconnect") :
    Exchanges request (Server.onLaunch request : ServerMethod β (Logged ω) Unit) := by
  intro w
  unfold Server.onLaunch
  cases (request.arguments.get "trace").bind Value.asStr with
  | none =>
    exact (launched_relays request).exchanges hcommand (DebugBackend.launch request.arguments) w
  | some trace =>
    generalize ((request.arguments.get "checkpointInterval").bind Value.asU64).getD
      defaultCheckpointInterval = interval
    rcases hselect : (DebugBackend.selectReplayBackend trace interval w.host.host :
      Except String (Option β) × ω) with ⟨message | opened, host⟩
    · -- the recording does not open: nothing but the log has changed when the failure is told
      refine ⟨_, _, (Effect.bind_ok (select_error hselect)).trans
        (speak_then (emitEvent_speak request "output" (Server.outputBody message) _)
          (respondFailure_speak request message)), List.append_assoc _ _ _, ?_⟩
      have hrefused := @Exchange.refused β request w.object [] (.notOpened message) message
        (speak request (failureLines message) w).object (.inr ⟨rfl, rfl⟩)
        (List.forall_mem_nil _) hcommand rfl
      have hzero : w.object.nextSeq + UInt64.ofNat ([] : List Line).length = w.object.nextSeq :=
        UInt64.add_zero _
      rw [hzero] at hrefused
      exact hrefused
    · obtain ⟨deeds, w', hrun, hlog, hexchange⟩ := launchSelected_exchange hcommand opened
        { w with host := { w.host with host } }
      exact ⟨deeds, w', (Effect.bind_ok (select_ok hselect)).trans hrun, hlog, hexchange⟩

/-- Every request is carried out as one exchange. -/
theorem dispatch_exchanges (request : Request) :
    Exchanges request (Server.dispatch request : ServerMethod β (Logged ω) Unit) := by
  have hanswer := answer_relays (ω := ω) (β := β) request
  unfold Server.dispatch
  split
  case h_1 h => exact onInitialize_exchanges h
  case h_2 h | h_3 h => exact onLaunch_exchanges (by simp [h])
  case h_4 | h_5 | h_6 | h_7 => exact respondSuccess_exchanges request (.object [])
  case h_8 h | h_9 h | h_10 h | h_11 h | h_12 h | h_13 h =>
    exact hanswer.exchanges (by simp [h]) _
  case h_14 h | h_15 h | h_16 h | h_17 h | h_18 h | h_19 h =>
    exact onResume_exchanges (by simp [h]) _
  case h_20 h => exact onJump_exchanges (by simp [h])
  case h_21 => exact respondFailure_exchanges (by assumption) _

end Handlers

/-! ## What an exchange promises -/

@[simp] theorem messages_append (first second : List Deed) :
    messages (first ++ second) = messages first ++ messages second :=
  List.filterMap_append

@[simp] theorem responses_append (first second : List Deed) :
    responses (first ++ second) = responses first ++ responses second := by
  simp only [responses, messages_append, List.filter_append]

/-- Every deed of a script is one of its lines, written. -/
theorem mem_written {request : Request} {seq : UInt64} {lines : List Line} {deed : Deed}
    (h : deed ∈ written request seq lines) :
    ∃ line ∈ lines, ∃ n, deed = .wrote (line.message request n) := by
  induction lines generalizing seq with
  | nil => cases h
  | cons line lines ih =>
    rcases List.mem_cons.mp h with rfl | h
    · exact ⟨line, List.mem_cons_self, seq + 1, rfl⟩
    · obtain ⟨line', hline, hdeed⟩ := ih h
      exact ⟨line', List.mem_cons_of_mem _ hline, hdeed⟩

theorem responses_written_events {request : Request} {seq : UInt64} {lines : List Line}
    (h : ∀ line ∈ lines, line.IsEvent) : responses (written request seq lines) = [] := by
  induction lines generalizing seq with
  | nil => rfl
  | cons line lines ih =>
    have hline : ¬ isResponse (line.message request (seq + 1)) = true := by
      simpa [isResponse_message] using h line List.mem_cons_self
    have hrest : responses (written request (seq + 1) lines) = [] :=
      ih fun line hmem => h line (List.mem_cons_of_mem _ hmem)
    simp only [responses, messages] at hrest ⊢
    simp [written, Deed.message, hline, hrest]

theorem responses_wrote {request : Request} {seq : UInt64} {line : Line}
    (h : ¬ line.IsEvent) (rest : List Deed) :
    responses (.wrote (line.message request seq) :: rest) =
      line.message request seq :: responses rest := by
  have hline := (isResponse_message request seq line).mpr h
  simp [responses, messages, Deed.message, hline]

/-- A response carries the number and the command of its request. -/
theorem echoes_message {request : Request} {seq : UInt64} {line : Line} (h : ¬ line.IsEvent) :
    Echoes request (line.message request seq) := by
  cases line with
  | success body => exact ⟨rfl, rfl⟩
  | failure message => exact ⟨rfl, rfl⟩
  | event name body => exact absurd trivial h

theorem isEvent_message {request : Request} {seq : UInt64} {line : Line} {name : String}
    (h : IsEvent name (line.message request seq)) : ∃ body, line = .event name body := by
  cases line with
  | success body | failure message =>
    have htype : some (Value.string "response") = some (.string "event") := h.1
    simp at htype
  | event name' body =>
    have hname : some (Value.string name') = some (.string name) := h.2
    simp only [Option.some.injEq, Value.string.injEq] at hname
    exact ⟨body, by rw [hname]⟩

theorem noStop_written {request : Request} {seq : UInt64} {lines : List Line}
    (h : ∀ line ∈ lines, ¬ line.IsStop) : NoStop (written request seq lines) := by
  intro message hmessage
  obtain ⟨deed, hdeed, hwrote⟩ := List.mem_filterMap.mp hmessage
  obtain ⟨line, hline, n, rfl⟩ := mem_written hdeed
  have hstop := h line hline
  simp only [Deed.message, Option.some.injEq] at hwrote
  subst hwrote
  constructor
  · intro hevent
    obtain ⟨body, rfl⟩ := isEvent_message hevent
    exact hstop (.inl rfl)
  · intro hevent
    obtain ⟨body, rfl⟩ := isEvent_message hevent
    exact hstop (.inr rfl)

/-- A failure stands out among written messages: there is one way to find it in a log. -/
theorem eq_of_split {written written' before after : List Deed} {mark deed : Deed}
    (hbefore : deed ∉ written) (hafter : deed ∉ written')
    (h : written ++ mark :: written' = before ++ deed :: after) :
    mark = deed ∧ after = written' := by
  induction written generalizing before with
  | nil =>
    cases before with
    | nil =>
      simp only [List.nil_append, List.cons.injEq] at h
      exact ⟨h.1, h.2.symm⟩
    | cons first before =>
      simp only [List.nil_append, List.cons_append, List.cons.injEq] at h
      exact absurd (by simp [h.2]) hafter
  | cons first written ih =>
    cases before with
    | nil =>
      simp only [List.nil_append, List.cons_append, List.cons.injEq] at h
      exact absurd (by simp [h.1]) hbefore
    | cons first' before =>
      simp only [List.cons_append, List.cons.injEq] at h
      exact ih (fun hmem => hbefore (List.mem_cons_of_mem _ hmem)) h.2

/-- A deed that wrote nothing is in no script. -/
theorem notMem_written (deed : Deed) (h : deed.message = none) (request : Request)
    (seq : UInt64) (lines : List Line) : deed ∉ written request seq lines := by
  intro hmem
  obtain ⟨line, -, n, rfl⟩ := mem_written hmem
  cases h

theorem written_ne_split {request : Request} {seq : UInt64} {lines : List Line} {deed : Deed}
    {before after : List Deed} (h : deed.message = none)
    (heq : written request seq lines = before ++ deed :: after) : False := by
  apply notMem_written deed h request seq lines
  rw [heq]
  simp

theorem told_failureLines (request : Request) (message : String) (seq : UInt64) :
    Told request message (written request seq (failureLines message)) :=
  ⟨seq + 1, rfl⟩

/-- The failure of an exchange is shown and answered, and no stop is reported. -/
theorem refused_told {request : Request} {notes : List Line} {mark deed : Deed}
    {message : String} {seq seq' : UInt64} {before after : List Deed}
    (hnotes : ∀ note ∈ notes, note.IsEvent ∧ ¬ note.IsStop) (hmark : mark.message = none)
    (hdeed : deed.message = none)
    (h : written request seq notes ++ mark :: written request seq' (failureLines message) =
      before ++ deed :: after) :
    mark = deed ∧ Told request message after ∧
      NoStop (written request seq notes ++
        mark :: written request seq' (failureLines message)) := by
  obtain ⟨rfl, rfl⟩ := eq_of_split (notMem_written deed hdeed request seq notes)
    (notMem_written deed hdeed request seq' (failureLines message)) h
  refine ⟨rfl, told_failureLines request message seq', ?_⟩
  have hbefore : NoStop (written request seq notes) :=
    noStop_written fun note hnote => (hnotes note hnote).2
  have hafter : NoStop (written request seq' (failureLines message)) :=
    noStop_written (by simp [failureLines, Line.IsStop])
  intro m hm
  rw [messages_append, List.mem_append] at hm
  rcases hm with hm | hm
  · exact hbefore m hm
  · apply hafter m
    simpa [messages, hmark] using hm

theorem Exchange.answered {request : Request} {s s' : Server β} {deeds : List Deed}
    (h : Exchange request s deeds s') : Answered request s deeds s' := by
  cases h with
  | @reply notes events line s' hnotes hline hevents hquiet hseq =>
    have hsplit := written_append request s.nextSeq notes (line :: events)
    constructor
    · refine ⟨line.message request (s.nextSeq + UInt64.ofNat notes.length + 1), ?_,
        echoes_message hline⟩
      rw [hsplit, responses_append, responses_written_events hnotes, written,
        responses_wrote hline, responses_written_events hevents]
      rfl
    · intro message before after heq
      exact (written_ne_split rfl heq).elim
    · intro message before after heq
      exact (written_ne_split rfl heq).elim
    · intro hcommand
      obtain ⟨rfl, rfl, body, rfl⟩ := hquiet hcommand
      exact ⟨s.nextSeq + 1, body, rfl⟩
  | @refused notes mark message s' hmark hnotes hcommand hseq =>
    have hsilent : mark.message = none := by
      rcases hmark with rfl | ⟨rfl, -⟩ <;> rfl
    constructor
    · refine ⟨failure (s.nextSeq + UInt64.ofNat notes.length + 1 + 1) request message, ?_,
        rfl, rfl⟩
      rw [responses_append, responses_written_events fun note hnote => (hnotes note hnote).1]
      simp only [responses, messages, List.filterMap_cons_none hsilent]
      rfl
    · intro message' before after heq
      obtain ⟨rfl, htold, hstop⟩ := refused_told hnotes hsilent rfl heq
      simp at hmark
      subst hmark
      exact ⟨htold, hstop⟩
    · intro message' before after heq
      obtain ⟨rfl, htold, hstop⟩ := refused_told hnotes hsilent rfl heq
      simp at hmark
      obtain ⟨rfl, hbackend⟩ := hmark
      exact ⟨htold, hstop, hbackend⟩
    · intro h
      exact absurd h hcommand

/-! ## Numbering -/

/-- Messages that carry the numbers from `seq + 1` on. -/
def Numbered : UInt64 → List Value → Prop
  | _, [] => True
  | seq, message :: rest =>
    message.get "seq" = some (.ofU64 (seq + 1)) ∧ Numbered (seq + 1) rest

theorem Numbered.append {seq : UInt64} {first second : List Value} (hfirst : Numbered seq first)
    (hsecond : Numbered (seq + UInt64.ofNat first.length) second) :
    Numbered seq (first ++ second) := by
  induction first generalizing seq with
  | nil => simpa using hsecond
  | cons message rest ih =>
    refine ⟨hfirst.1, ih hfirst.2 ?_⟩
    rw [seq_add_succ]
    exact hsecond

theorem Numbered.seqs {seq : UInt64} {sent : List Value} (h : Numbered seq sent) :
    sent.map (Value.get "seq") =
      (List.range sent.length).map fun i => some (.ofU64 (seq + UInt64.ofNat (i + 1))) := by
  induction sent generalizing seq with
  | nil => rfl
  | cons message rest ih =>
    rw [List.length_cons, List.range_succ_eq_map, List.map_cons, List.map_cons, List.map_map, h.1,
      ih h.2]
    congr 1
    apply List.map_congr_left
    intro i _
    simp only [Function.comp, seq_add_succ]

theorem messages_written_length (request : Request) (seq : UInt64) (lines : List Line) :
    (messages (written request seq lines)).length = lines.length := by
  induction lines generalizing seq with
  | nil => rfl
  | cons line lines ih => exact congrArg (· + 1) (ih (seq + 1))

theorem numbered_written (request : Request) (seq : UInt64) (lines : List Line) :
    Numbered seq (messages (written request seq lines)) := by
  induction lines generalizing seq with
  | nil => trivial
  | cons line lines ih => exact ⟨message_seq request (seq + 1) line, ih (seq + 1)⟩

/-- An exchange numbers its messages, and the next one goes on from there. -/
theorem Exchange.numbered {request : Request} {s s' : Server β} {deeds : List Deed}
    (h : Exchange request s deeds s') :
    Numbered s.nextSeq (messages deeds) ∧
      s'.nextSeq = s.nextSeq + UInt64.ofNat (messages deeds).length := by
  cases h with
  | reply hnotes hline hevents hquiet hseq =>
    exact ⟨numbered_written request _ _, by rw [messages_written_length, hseq]⟩
  | @refused notes mark message s' hmark hnotes hcommand hseq =>
    have hsilent : mark.message = none := by
      rcases hmark with rfl | ⟨rfl, -⟩ <;> rfl
    have hmessages : messages (written request s.nextSeq notes ++ mark ::
        written request (s.nextSeq + UInt64.ofNat notes.length) (failureLines message)) =
        messages (written request s.nextSeq (notes ++ failureLines message)) := by
      rw [written_append, messages_append, messages_append]
      simp only [messages, List.filterMap_cons_none hsilent]
    rw [hmessages, messages_written_length]
    exact ⟨numbered_written request _ _, hseq⟩

/-! ## Runs -/

/-- The frames that arrive before the stream ends or breaks. -/
def arrived : List (Except TransportError Value) → List Value
  | .ok frame :: reader => frame :: arrived reader
  | _ => []

/-- The requests up to the first `disconnect`, which is the last one served. -/
def untilDisconnect : List Request → List Request
  | [] => []
  | request :: requests =>
    if request.command = "disconnect" then [request] else request :: untilDisconnect requests

/-- The requests a run serves. -/
def served (reader : List (Except TransportError Value)) : List Request :=
  untilDisconnect ((arrived reader).filterMap Request.fromValue)

theorem Conversation.responses {s s' : Server β} {requests : List Request} {log : List Deed}
    (h : Conversation s requests log s') : List.Forall₂ Echoes requests (responses log) := by
  induction h with
  | silence => exact .nil
  | next hanswered _ ih =>
    obtain ⟨response, hresponse, hechoes⟩ := hanswered.once
    rw [responses_append, hresponse]
    exact .cons hechoes ih

section Runs

variable [DebugBackend β ω]

/-- From any state, a run is a conversation with the requests it serves, and numbers its
messages on from the ones before it. -/
theorem runBuffered_conversation (reader : List (Except TransportError Value))
    (w : Hosted (Server β) (Logged ω)) :
    ∃ log w', (Server.runBuffered reader w = .ok () w' ∨
        ∃ e, .error e ∈ reader ∧ Server.runBuffered reader w = .error e w') ∧
      w'.host.log = w.host.log ++ log ∧ Numbered w.object.nextSeq (messages log) ∧
      Conversation w.object (served reader) log w'.object := by
  -- Over the frames: one that is no request is skipped, an unreadable one ends the run.
  induction reader generalizing w with
  | nil => exact ⟨[], w, .inl rfl, by simp, trivial, .silence w.object⟩
  | cons read reader ih =>
    cases read with
    | error e =>
      exact ⟨[], w, .inr ⟨e, List.mem_cons_self, rfl⟩, by simp, trivial, .silence w.object⟩
    | ok frame =>
      cases hframe : Request.fromValue frame with
      | none =>
        obtain ⟨log, w', hrun, hrest⟩ := ih w
        have hserved : served (.ok frame :: reader) = served reader := by
          simp [served, arrived, hframe]
        have hskip : Server.runBuffered (.ok frame :: reader) w =
            Server.runBuffered reader w := by
          simp only [Server.runBuffered, hframe]
        rw [hserved, hskip]
        refine ⟨log, w', ?_, hrest⟩
        exact hrun.imp_right fun ⟨e, he, h⟩ => ⟨e, List.mem_cons_of_mem _ he, h⟩
      | some request =>
        obtain ⟨deeds, w₁, hdispatch, hlog, hexchange⟩ := dispatch_exchanges request w
        obtain ⟨hnumbered, hnext⟩ := hexchange.numbered
        have hrest : Server.runBuffered (.ok frame :: reader) w =
            (if request.command == "disconnect" then pure ()
              else Server.runBuffered reader) w₁ := by
          simp only [Server.runBuffered, hframe]
          exact Effect.bind_ok hdispatch
        rw [hrest]
        by_cases hdisconnect : request.command = "disconnect"
        · have hserved : served (.ok frame :: reader) = [request] := by
            simp [served, arrived, hframe, untilDisconnect, hdisconnect]
          rw [hserved, if_pos (by simp [hdisconnect])]
          exact ⟨deeds, w₁, .inl rfl, hlog, hnumbered,
            by simpa using Conversation.next hexchange.answered (.silence w₁.object)⟩
        · have hserved : served (.ok frame :: reader) = request :: served reader := by
            simp [served, arrived, hframe, untilDisconnect, hdisconnect]
          obtain ⟨log, w', hrun, hlog', hnumbered', hconversation⟩ := ih w₁
          rw [hserved, if_neg (by simp [hdisconnect])]
          refine ⟨deeds ++ log, w', ?_, ?_, ?_, .next hexchange.answered hconversation⟩
          · exact hrun.imp_right fun ⟨e, he, h⟩ => ⟨e, List.mem_cons_of_mem _ he, h⟩
          · rw [hlog', hlog, List.append_assoc]
          · rw [messages_append]
            exact hnumbered.append (hnext ▸ hnumbered')

/-- **Every request is answered exactly once.** On any stream, with any backend and a writer
that does not fail, the server writes messages numbered 1, 2, 3, ..., and its responses are,
in order, one for each request that arrives up to the first `disconnect`, with that request's
number and command. What it does is one exchange after another: a backend error or a
recording that does not open is shown and then answered with the same message, no stop is
reported, and the recording that did not open leaves the backend in place. -/
theorem answers_each_request_once (backend : β) (host : ω)
    (reader : List (Except TransportError Value)) :
    ∃ w', (Server.runBuffered reader (fresh backend host) = .ok () w' ∨
        ∃ e, .error e ∈ reader ∧ Server.runBuffered reader (fresh backend host) = .error e w') ∧
      (messages w'.host.log).map (Value.get "seq") =
        (List.range (messages w'.host.log).length).map (fun i =>
          some (.ofU64 (UInt64.ofNat (i + 1)))) ∧
      List.Forall₂ Echoes (served reader) (responses w'.host.log) ∧
      Conversation (Server.new backend) (served reader) w'.host.log w'.object := by
  obtain ⟨log, w', hrun, hlog, hnumbered, hconversation⟩ :=
    runBuffered_conversation reader (fresh backend host)
  have hlog : w'.host.log = log := hlog
  rw [← hlog] at hnumbered hconversation
  refine ⟨w', hrun, ?_, hconversation.responses, hconversation⟩
  rw [hnumbered.seqs]
  simp only [fresh, Server.new, UInt64.zero_add]

end Runs

end Mirrorscope.Dap
