import Mirrorscope.Dap.Conversation
import Mirrorscope.Dap.Transport
import Mirrorscope.Lib.Tracking

/-! # The server on a connection

`Server::run` on the two byte streams of a connection: what it reads of the frames that arrive,
and what it writes of its messages. A run on a connection is compared with the same run on a
log of messages: what the client has received at any time is framed messages of that log, from
the front, and part of the next one if that could not be written.

The steps of the comparison:
* `received`: the messages of the bytes that arrive, as the server takes them off the buffer.
* `OnLog`: the two servers agree, and the client was sent what the log holds. `Blocked`: the
  next message could not be written.
* `Speaks`: a method keeps `OnLog`, or it is blocked and fails with that. Each part of the
  server has its lemma, up to `dispatch_speaks`.
* `Served`, `wire_served`: what the client has when a run has ended.
-/

namespace Mirrorscope.Dap

open ByteIO (Buffer ByteVec Write)
open Effect (Tracked Tracks final)
open Run (Hosted)
open Transport (Frames JsonCodec readFrame)

/-! ## Reading -/

/-- A failure of the transport, as a run of the server reports it. -/
def TransportError.ofFrame : Transport.TransportError String → TransportError
  | .missingContentLength => .missingContentLength
  | .invalidContentLength value => .invalidContentLength (String.ofList value)
  | .malformedJson message => .malformedJson message
  | .io .unexpectedEof => .io "failed to fill whole buffer"
  | .io .invalidUtf8 => .io "stream did not contain valid UTF-8"
  | .io (.raw e) => .io ("os error " ++ toString e.code)

/-- How a read that gives no message ends the run; a panic ends it as well. -/
def TransportError.ofStop : Transport.ReadStop String → TransportError
  | .error e => .ofFrame e
  | .capacityOverflow => .io "capacity overflow"

/-- A header block takes at least one byte. -/
theorem readHeadersFrom_shrinks {JsonError : Type} (contentLength : Option Nat) (sawAnyByte : Bool)
    (b : Buffer) {n : Nat} {b' : Buffer}
    (h : (Transport.readHeadersFrom contentLength sawAnyByte b :
      Except (Transport.TransportError JsonError) (Option Nat) × Buffer) = (.ok (some n), b')) :
    b'.bytes.length < b.bytes.length := by
  fun_induction Transport.readHeadersFrom contentLength sawAnyByte b with
  | case1 => cases h
  | case2 => cases h
  | case3 => cases h
  | case4 _ _ _ _ _ hline =>
    have hlength := Transport.readLine_length hline
    obtain ⟨-, rfl⟩ := Prod.mk.inj h
    omega
  | case5 => cases h
  | case6 _ _ _ _ _ _ hline _ _ _ _ _ _ _ ih =>
    have hlength := Transport.readLine_length hline
    have hrest := ih h
    omega
  | case7 => cases h
  | case8 _ _ _ _ _ _ hline _ _ _ ih =>
    have hlength := Transport.readLine_length hline
    have hrest := ih h
    omega

variable {json : JsonCodec Value String}

/-- A frame that was read is gone from the buffer. -/
theorem readFrame_shrinks {b b' : Buffer} {message : Value}
    (h : readFrame json b = (.ok (some message), b')) : b'.bytes.length < b.bytes.length := by
  unfold readFrame at h
  split at h
  · cases h
  · cases h
  · rename_i n block hblock
    have hheader := readHeadersFrom_shrinks none false b hblock
    split at h
    · cases h
    · by_cases hshort : block.bytes.length < n
      · obtain ⟨_, hread⟩ := Buffer.readExact_short hshort
        rw [hread] at h
        cases h
      · have hsplit : block.bytes = block.bytes.take n ++ block.bytes.drop n :=
          (List.take_append_drop n _).symm
        obtain ⟨after, hread, hafter⟩ := Buffer.readExact_eq hsplit
        rw [List.length_take, Nat.min_eq_left (Nat.le_of_not_lt hshort)] at hread
        rw [hread] at h
        simp only at h
        split at h
        · cases h
        · obtain ⟨-, rfl⟩ := Prod.mk.inj h
          rw [hafter, List.length_drop]
          omega

variable (json) in
/-- What `read_frame` yields on the bytes of a connection, until it yields no message. -/
def received (b : Buffer) : List (Except TransportError Value) :=
  match _h : readFrame json b with
  | (.error stop, _) => [.error (.ofStop stop)]
  | (.ok none, _) => []
  | (.ok (some message), b') => .ok message :: received b'
termination_by b.bytes.length
decreasing_by exact readFrame_shrinks _h

/-- The payload of a frame is read as what it says, whatever the pieces it arrives in. -/
theorem readFrame_payload {payload : ByteVec} {message : Value}
    (hmessage : json.fromSlice payload.bytes = .ok message) {b : Buffer} {rest : List UInt8}
    (h : b.bytes = Transport.frame payload.bytes ++ rest) :
    ∃ b', readFrame json b = (.ok (some message), b') ∧ b'.bytes = rest := by
  have hbound := payload.bounded
  have hlong : payload.bytes.length < 2 ^ 64 := by omega
  have hframe : b.bytes = ByteIO.encodeUtf8 (Transport.header payload.bytes.length) ++
      (payload.bytes ++ rest) := by
    rw [h, Transport.frame, List.append_assoc]
  obtain ⟨block, hheaders, hblock⟩ := Transport.readHeaders_header String hlong hframe
  obtain ⟨b', hread, hb'⟩ := Buffer.readExact_eq hblock
  have hcap : ¬ 2 ^ 63 ≤ payload.bytes.length := by omega
  refine ⟨b', ?_, hb'⟩
  simp only [readFrame, hheaders, hcap, ↓reduceIte, hread, hmessage]

/-- Frames that arrive whole are received as their messages. -/
theorem received_frames {payloads : List ByteVec} {messages : List Value}
    (hmessages : payloads.map (fun p => json.fromSlice p.bytes) = messages.map .ok) {b : Buffer}
    {rest : List UInt8}
    (h : b.bytes = (payloads.flatMap fun p => Transport.frame p.bytes) ++ rest) :
    ∃ b', b'.bytes = rest ∧ received json b = messages.map .ok ++ received json b' := by
  induction payloads generalizing messages b with
  | nil =>
    obtain rfl : messages = [] := by simpa using hmessages.symm
    exact ⟨b, h, rfl⟩
  | cons payload payloads ih =>
    cases messages with
    | nil => cases hmessages
    | cons message messages =>
      obtain ⟨hmessage, hrest⟩ := List.cons.inj hmessages
      rw [List.flatMap_cons, List.append_assoc] at h
      obtain ⟨b₁, hread, hb₁⟩ := readFrame_payload hmessage h
      obtain ⟨b', hb', hreceived⟩ := ih hrest hb₁
      refine ⟨b', hb', ?_⟩
      rw [received]
      split
      · rename_i heq
        cases hread.symm.trans heq
      · rename_i heq
        cases hread.symm.trans heq
      · rename_i message' b₂ heq
        obtain ⟨hok, rfl⟩ := Prod.mk.inj (hread.symm.trans heq)
        rcases Option.some.inj (Except.ok.inj hok) with rfl
        rw [hreceived, List.map_cons, List.cons_append]

/-- Nothing arrives of an empty buffer. -/
theorem received_end {b : Buffer} (h : b.bytes = []) : received json b = [] := by
  have hread : (readFrame json b).1 = .ok none := Transport.readFrame_end h
  rw [received]
  split
  · rename_i heq
    rw [heq] at hread
    cases hread
  · rfl
  · rename_i heq
    rw [heq] at hread
    cases hread

/-- A frame that is cut off is received as an error. -/
theorem received_cut {payload : ByteVec} (hne : payload.bytes ≠ []) {b : Buffer}
    (hpart : b.bytes <+: Transport.frame payload.bytes) (hsome : b.bytes ≠ [])
    (hall : b.bytes ≠ Transport.frame payload.bytes) :
    ∃ e, received json b = [.error e] := by
  obtain ⟨e, hread⟩ := Transport.readFrame_cut json hne hpart hsome hall
  refine ⟨.ofFrame e, ?_⟩
  rw [received]
  split
  · rename_i stop _ heq
    rw [heq] at hread
    rcases Except.error.inj hread with rfl
    rfl
  · rename_i heq
    rw [heq] at hread
    cases hread
  · rename_i heq
    rw [heq] at hread
    cases hread

/-! ## Writing -/

/-- A system, and the stream to the client. -/
structure Wired (json : JsonCodec Value String) (ω W : Type) where
  host : ω
  output : W

namespace Wired

variable {β ω W α : Type}

/-- A message is written as a frame. -/
instance frameWriter [Write W] : FrameWriter (Wired json ω W) where
  writeFrame message w :=
    match Transport.writeFrame json message w.output with
    | (.ok (), output) => (.ok (), { w with output })
    | (.error e, output) => (.error (.ofFrame e), { w with output })

def method (m : BackendMethod β ω α) : BackendMethod β (Wired json ω W) α := fun w =>
  match m ⟨w.object, w.host.host⟩ with
  | .ok a v => .ok a ⟨v.object, { w.host with host := v.host }⟩
  | .error e v => .error e ⟨v.object, { w.host with host := v.host }⟩

def select [DebugBackend β ω] (trace : String) (interval : UInt64) (w : Wired json ω W) :
    Except String (Option β) × Wired json ω W :=
  match DebugBackend.selectReplayBackend trace interval w.host with
  | (answer, host) => (answer, { w with host })

/-- The backends of a system know nothing of the connection. -/
instance debugBackend [DebugBackend β ω] : DebugBackend β (Wired json ω W) where
  launch arguments := method (DebugBackend.launch arguments)
  threads := method DebugBackend.threads
  stackTrace arguments := method (DebugBackend.stackTrace arguments)
  scopes arguments := method (DebugBackend.scopes arguments)
  «variables» arguments := method (DebugBackend.«variables» arguments)
  resume kind := method (DebugBackend.resume kind)
  listCheckpoints := method DebugBackend.listCheckpoints
  taskTimeline := method DebugBackend.taskTimeline
  jumpToEvent arguments := method (DebugBackend.jumpToEvent arguments)
  checkpointNote := DebugBackend.checkpointNote ω
  selectReplayBackend := select

end Wired

/-! ## A connection and a log -/

section Compared

variable {β ω W α : Type} [Write W] {start : List UInt8}

/-- The same server and system, and the client has been sent the messages of the log. -/
structure OnLog (start : List UInt8) (w : Hosted (Server β) (Wired json ω W))
    (l : Hosted (Server β) (Logged ω)) : Prop where
  object : w.object = l.object
  host : w.host.host = l.host.host
  sent : ∃ bs, Frames json (messages l.host.log) bs ∧ Write.written w.host.output = start ++ bs

/-- The message that comes next in the log could not be written, and has left something in the
sink. -/
def Blocked (e : TransportError) (w w' : Hosted (Server β) (Wired json ω W))
    (l l' : Hosted (Server β) (Logged ω)) : Prop :=
  ∃ message failure, l'.host.log = l.host.log ++ [.wrote message] ∧
    Transport.writeFrame json message w.host.output = (.error failure, w'.host.output) ∧
    e = .ofFrame failure

/-- The log goes on. -/
def Grows (l l' : Hosted (Server β) (Logged ω)) : Prop := l.host.log <+: l'.host.log

theorem Grows.refl (l : Hosted (Server β) (Logged ω)) : Grows l l := List.prefix_rfl

theorem Grows.trans (l l' l'' : Hosted (Server β) (Logged ω)) (h : Grows l l')
    (h' : Grows l' l'') : Grows l l'' :=
  List.IsPrefix.trans h h'

variable (start) in
/-- A method on a connection tracks itself on a log. -/
def Speaks (m : ServerMethod β (Wired json ω W) α) (m' : ServerMethod β (Logged ω) α) : Prop :=
  Tracks (OnLog start) Grows Blocked m m'

theorem Speaks.bind {γ : Type} {m : ServerMethod β (Wired json ω W) α}
    {m' : ServerMethod β (Logged ω) α} {k : α → ServerMethod β (Wired json ω W) γ}
    {k' : α → ServerMethod β (Logged ω) γ} (hm : Speaks start m m')
    (hk : ∀ a, Speaks start (k a) (k' a)) : Speaks start (m >>= k) (m' >>= k') :=
  Tracks.bind Grows.trans hm hk

theorem Speaks.pure (a : α) :
    Speaks start (Pure.pure a : ServerMethod β (Wired json ω W) α) (Pure.pure a) :=
  Tracks.pure Grows.refl a

theorem bumpSeq_speaks :
    Speaks start (Server.bumpSeq : ServerMethod β (Wired json ω W) UInt64) Server.bumpSeq where
  grows l := Grows.refl l
  tracks w l h := by
    have hseq : w.object.nextSeq = l.object.nextSeq := by rw [h.object]
    unfold Server.bumpSeq
    rw [hseq]
    exact .ok ⟨by rw [h.object], h.host, h.sent⟩

/-- Frames after frames. -/
theorem frames_append {messages more : List Value} {bs bs' : List UInt8}
    (h : Frames json messages bs) (h' : Frames json more bs') :
    Frames json (messages ++ more) (bs ++ bs') := by
  obtain ⟨payloads, hmap, rfl⟩ := h
  obtain ⟨payloads', hmap', rfl⟩ := h'
  exact ⟨payloads ++ payloads', by rw [List.map_append, List.map_append, hmap, hmap'],
    by rw [List.flatMap_append]⟩

/-- A message is written, or the run breaks off in it. -/
theorem writeFrame_speaks (message : Value) :
    Speaks start (Server.writeFrame message : ServerMethod β (Wired json ω W) Unit)
      (Server.writeFrame message) where
  grows l := List.prefix_append _ _
  tracks w l h := by
    unfold Server.writeFrame
    simp only [FrameWriter.writeFrame]
    rcases hwrite : Transport.writeFrame json message w.host.output with ⟨e | ⟨⟩, output⟩
    · exact .broken h ⟨message, e, rfl, hwrite, rfl⟩ List.prefix_rfl
    · obtain ⟨payload, hvec, hwritten⟩ := Transport.writeFrame_ok hwrite
      obtain ⟨bs, hframes, hsent⟩ := h.sent
      refine .ok ⟨h.object, h.host, bs ++ Transport.frame payload.bytes, ?_, ?_⟩
      · have hone : Frames json [message] (Transport.frame payload.bytes) :=
          ⟨[payload], by simp [hvec], by simp⟩
        simpa [messages, Deed.message] using frames_append hframes hone
      · rw [hwritten, hsent, List.append_assoc]

/-- A deed that writes nothing. -/
theorem messages_silent {deed : Deed} (h : deed.message = none) (log : List Deed) :
    messages (log ++ [deed]) = messages log := by
  rw [messages_append]
  simp [messages, h]

/-- What the backend does, it does the same way; on a log its failure is logged. -/
theorem asks_speaks (m : BackendMethod β ω α) :
    Speaks start (Server.asks (Wired.method m : BackendMethod β (Wired json ω W) α))
      (Server.asks (Logged.method m)) where
  grows l := by
    unfold Server.asks Logged.method
    cases m ⟨l.object.backend, l.host.host⟩ with
    | ok a v => exact List.prefix_rfl
    | error e v => exact List.prefix_append _ _
  tracks w l h := by
    unfold Server.asks Wired.method Logged.method
    simp only [h.object, h.host]
    cases m ⟨l.object.backend, l.host.host⟩ with
    | ok a v => exact .ok ⟨rfl, rfl, h.sent⟩
    | error e v =>
      refine .ok ⟨rfl, rfl, ?_⟩
      rw [messages_silent rfl]
      exact h.sent

variable [DebugBackend β ω]

/-- Opening a trace sends nothing. -/
theorem select_speaks (trace : String) (interval : UInt64) :
    Speaks start (Server.selectReplayBackend trace interval : ServerMethod β (Wired json ω W) _)
      (Server.selectReplayBackend trace interval) where
  grows l := by
    unfold Server.selectReplayBackend
    simp only [DebugBackend.selectReplayBackend, Logged.select]
    split
    · exact List.prefix_rfl
    · exact List.prefix_append _ _
  tracks w l h := by
    unfold Server.selectReplayBackend
    simp only [DebugBackend.selectReplayBackend, Wired.select, Logged.select, h.host]
    generalize DebugBackend.selectReplayBackend (β := β) trace interval l.host.host = answer
    obtain ⟨opened, host⟩ := answer
    cases opened with
    | ok backend => exact .ok ⟨h.object, rfl, h.sent⟩
    | error message =>
      refine .ok ⟨h.object, rfl, ?_⟩
      rw [messages_silent rfl]
      exact h.sent

omit [DebugBackend β ω] in
theorem setBackend_speaks (backend : β) :
    Speaks start
      (modify fun w => { w with object := { w.object with backend } } :
        ServerMethod β (Wired json ω W) Unit)
      (modify fun w => { w with object := { w.object with backend } }) where
  grows _ := List.prefix_rfl
  tracks _ _ h :=
    .ok ⟨congrArg (fun s : Server β => { s with backend }) h.object, h.host, h.sent⟩

section Messages

omit [DebugBackend β ω]

theorem respondSuccess_speaks (request : Request) (body : Value) :
    Speaks start (Server.respondSuccess request body : ServerMethod β (Wired json ω W) Unit)
      (Server.respondSuccess request body) :=
  bumpSeq_speaks.bind fun _ => writeFrame_speaks _

theorem respondFailure_speaks (request : Request) (message : String) :
    Speaks start (Server.respondFailure request message : ServerMethod β (Wired json ω W) Unit)
      (Server.respondFailure request message) :=
  bumpSeq_speaks.bind fun _ => writeFrame_speaks _

theorem emitEvent_speaks (name : String) (body : Value) :
    Speaks start (Server.emitEvent name body : ServerMethod β (Wired json ω W) Unit)
      (Server.emitEvent name body) :=
  bumpSeq_speaks.bind fun _ => writeFrame_speaks _

/-- A stop is one event, or two when the target is over. -/
theorem emitStop_speaks (stop : StopInfo) :
    Speaks start (Server.emitStop stop : ServerMethod β (Wired json ω W) Unit)
      (Server.emitStop stop) := by
  cases stop with
  | stopped reason threadId => exact emitEvent_speaks _ _
  | exited code => exact (emitEvent_speaks _ _).bind fun _ => emitEvent_speaks _ _

theorem fail_speaks (request : Request) (error : BackendError) :
    Speaks start (Server.fail request error : ServerMethod β (Wired json ω W) Unit)
      (Server.fail request error) :=
  (emitEvent_speaks _ _).bind fun _ => respondFailure_speaks request _

/-- A body is sent as a response; an error is printed, too. -/
theorem answer_speaks (request : Request) (body : Except BackendError Value) :
    Speaks start (Server.answer request body : ServerMethod β (Wired json ω W) Unit)
      (Server.answer request body) := by
  cases body with
  | ok body => exact respondSuccess_speaks request body
  | error error => exact fail_speaks request error

end Messages

/-! ### Requests -/

omit [DebugBackend β ω] in
theorem onInitialize_speaks (request : Request) :
    Speaks start (Server.onInitialize request : ServerMethod β (Wired json ω W) Unit)
      (Server.onInitialize request) :=
  (respondSuccess_speaks request _).bind fun _ => emitEvent_speaks _ _

/-- What a launch ends with, once the note of the backend is known. -/
def noted {ω : Type} [FrameWriter ω] (stop : StopInfo) : Option String → ServerMethod β ω Unit
  | some note => do
    Server.emitOutput note
    Server.emitStop stop
  | none => Server.emitStop stop

omit [DebugBackend β ω] in
theorem noted_speaks (stop : StopInfo) (note : Option String) :
    Speaks start (noted stop note : ServerMethod β (Wired json ω W) Unit) (noted stop note) := by
  cases note with
  | some note => exact (emitEvent_speaks _ _).bind fun _ => emitStop_speaks stop
  | none => exact emitStop_speaks stop

theorem launched_ok {ω : Type} [FrameWriter ω] [DebugBackend β ω] (request : Request)
    (stop : StopInfo) : (Server.launched request (.ok stop) : ServerMethod β ω Unit) =
      Server.respondSuccess request (.object []) >>= fun _ => get >>= fun w =>
        noted stop (DebugBackend.checkpointNote ω w.object.backend) :=
  rfl

theorem launched_speaks (request : Request) (answer : Except BackendError StopInfo) :
    Speaks start (Server.launched request answer : ServerMethod β (Wired json ω W) Unit)
      (Server.launched request answer) := by
  cases answer with
  | error error => exact fail_speaks request error
  | ok stop =>
    rw [launched_ok, launched_ok]
    refine (respondSuccess_speaks request _).bind fun _ => ?_
    exact Tracks.get (fun w l (h : OnLog start w l) =>
      congrArg (fun s : Server β => DebugBackend.checkpointNote ω s.backend) h.object)
      (noted_speaks stop)

theorem launchBackend_speaks (request : Request) :
    Speaks start (Server.launchBackend request : ServerMethod β (Wired json ω W) Unit)
      (Server.launchBackend request) :=
  (asks_speaks _).bind fun answer => launched_speaks request answer

/-- A trace that is named is opened first, and the backend is launched. -/
theorem onLaunch_speaks (request : Request) :
    Speaks start (Server.onLaunch request : ServerMethod β (Wired json ω W) Unit)
      (Server.onLaunch request) := by
  unfold Server.onLaunch
  cases (request.arguments.get "trace").bind Value.asStr with
  | none => exact launchBackend_speaks request
  | some trace =>
    refine (select_speaks trace _).bind fun opened => ?_
    rcases opened with message | _ | backend
    · exact (emitEvent_speaks _ _).bind fun _ => respondFailure_speaks request message
    · exact (emitEvent_speaks _ _).bind fun _ => launchBackend_speaks request
    · exact (setBackend_speaks backend).bind fun _ => launchBackend_speaks request

theorem onResume_speaks (request : Request) (kind : ResumeKind) :
    Speaks start (Server.onResume request kind : ServerMethod β (Wired json ω W) Unit)
      (Server.onResume request kind) := by
  refine (asks_speaks _).bind fun answer => ?_
  cases answer with
  | ok stop => exact (respondSuccess_speaks request _).bind fun _ => emitStop_speaks stop
  | error error => exact fail_speaks request error

theorem onJump_speaks (request : Request) :
    Speaks start (Server.onJump request : ServerMethod β (Wired json ω W) Unit)
      (Server.onJump request) := by
  refine (asks_speaks _).bind fun answer => ?_
  cases answer with
  | ok stop => exact (respondSuccess_speaks request _).bind fun _ => emitStop_speaks stop
  | error error => exact fail_speaks request error

/-- One case for each command. -/
theorem dispatch_speaks (request : Request) :
    Speaks start (Server.dispatch request : ServerMethod β (Wired json ω W) Unit)
      (Server.dispatch request) := by
  have hanswer {m : BackendMethod β ω Value} :
      Speaks start
        (Server.asks (Wired.method m : BackendMethod β (Wired json ω W) Value) >>=
          Server.answer request)
        (Server.asks (Logged.method m) >>= Server.answer request) :=
    (asks_speaks m).bind (answer_speaks request)
  unfold Server.dispatch
  split
  case h_1 => exact onInitialize_speaks request
  case h_2 | h_3 => exact onLaunch_speaks request
  case h_4 | h_5 | h_6 | h_7 => exact respondSuccess_speaks request _
  case h_8 | h_9 | h_10 | h_11 | h_12 | h_13 => exact hanswer
  case h_14 | h_15 | h_16 | h_17 | h_18 | h_19 => exact onResume_speaks request _
  case h_20 => exact onJump_speaks request
  case h_21 => exact respondFailure_speaks request _

/-- A run on a connection tracks the run on a log. -/
theorem runBuffered_speaks (reader : List (Except TransportError Value)) :
    Speaks start (Server.runBuffered reader : ServerMethod β (Wired json ω W) Unit)
      (Server.runBuffered reader) := by
  induction reader with
  | nil => exact Speaks.pure ()
  | cons read reader ih =>
    cases read with
    | error e => exact Tracks.throw Grows.refl e
    | ok message =>
      simp only [Server.runBuffered]
      cases Request.fromValue message with
      | none => exact ih
      | some request =>
        refine (dispatch_speaks request).bind fun _ => ?_
        split
        · exact Speaks.pure ()
        · exact ih

end Compared

/-! ## Whole connections -/

theorem Numbered.of_append {seq : UInt64} {first second : List Value}
    (h : Numbered seq (first ++ second)) : Numbered seq first := by
  induction first generalizing seq with
  | nil => trivial
  | cons message rest ih => exact ⟨h.1, ih h.2⟩

section Connections

variable {β ω W : Type} [Write W] [DebugBackend β ω]

variable (json) in
/-- A server that has served nothing, at the end of a connection. -/
def connected (backend : β) (host : ω) (output : W) : Hosted (Server β) (Wired json ω W) :=
  ⟨Server.new backend, ⟨host, output⟩⟩

/-- What the client has been sent when a run has ended: framed messages, numbered from 1, whose
responses are those to the first requests. It is all of them, unless the next message of the
conversation could not be written: then the run has failed with that, and has left at most part
of the frame of this message behind the others. -/
def Served (requests : List Request)
    (run : EStateM.Result TransportError (Hosted (Server β) (Wired json ω W)) Unit) : Prop :=
  ∃ sent rest bs part, Frames json sent bs ∧
    Write.written (final run).host.output = bs ++ part ∧
    sent.map (Value.get "seq") =
      (List.range sent.length).map (fun i => some (.ofU64 (UInt64.ofNat (i + 1)))) ∧
    List.Forall₂ Echoes requests ((sent ++ rest).filter isResponse) ∧
    (rest = [] ∧ part = [] ∨ ∃ message more failure before, rest = message :: more ∧
      Write.written before = bs ∧
      Transport.writeFrame json message before = (.error failure, (final run).host.output) ∧
      run = .error (.ofFrame failure) (final run) ∧
      (part = [] ∨ ∃ payload, json.toVec message = .ok payload ∧
        part <+: Transport.frame payload.bytes))

/-- A run on a connection, whatever arrives on it. -/
theorem wire_served (backend : β) (host : ω) {output : W} (houtput : Write.written output = [])
    (input : Buffer) :
    Served (served (received json input))
      (Server.runBuffered (received json input) (connected json backend host output)) := by
  obtain ⟨log, l', hrun, hlog, hnumbered, hconversation⟩ :=
    runBuffered_conversation (received json input) (fresh backend host)
  have hlog : l'.host.log = log := hlog
  rw [← hlog] at hnumbered hconversation
  have hfinal : final (Server.runBuffered (received json input) (fresh backend host)) = l' := by
    rcases hrun with h | ⟨e, -, h⟩
    · rw [h]
      rfl
    · rw [h]
      rfl
  have hstart : OnLog [] (connected json backend host output) (fresh backend host) :=
    ⟨rfl, rfl, [], ⟨[], rfl, rfl⟩, houtput⟩
  have htracked := (runBuffered_speaks (received json input)).tracks _ _ hstart
  generalize Server.runBuffered (received json input) (connected json backend host output) = run
    at htracked
  -- the client has been sent the messages of a log that the run has passed
  obtain ⟨done, more, bs, part, hframes, hwritten, hsplit, hmore⟩ :
      ∃ (done more : List Deed) (bs part : List UInt8), Frames json (messages done) bs ∧
      Write.written (final run).host.output = bs ++ part ∧
      l'.host.log = done ++ more ∧ (more = [] ∧ part = [] ∨
        ∃ message after failure before, more = .wrote message :: after ∧
          Write.written before = bs ∧
          Transport.writeFrame json message before = (.error failure, (final run).host.output) ∧
          run = .error (.ofFrame failure) (final run) ∧
          (part = [] ∨ ∃ payload, json.toVec message = .ok payload ∧
            part <+: Transport.frame payload.bytes)) := by
    generalize Server.runBuffered (received json input) (fresh backend host) = run'
      at htracked hfinal
    have hended {v : Hosted (Server β) (Wired json ω W)} (h : OnLog [] v l') :
        ∃ bs, Frames json (messages l'.host.log) bs ∧
          Write.written v.host.output = bs ++ [] := by
      obtain ⟨bs, hframes, hwritten⟩ := h.sent
      exact ⟨bs, hframes, by rw [hwritten, List.nil_append, List.append_nil]⟩
    cases htracked with
    | ok h =>
      rcases hfinal with rfl
      obtain ⟨bs, hframes, hwritten⟩ := hended h
      exact ⟨_, [], bs, [], hframes, hwritten, (List.append_nil _).symm, .inl ⟨rfl, rfl⟩⟩
    | error h =>
      rcases hfinal with rfl
      obtain ⟨bs, hframes, hwritten⟩ := hended h
      exact ⟨_, [], bs, [], hframes, hwritten, (List.append_nil _).symm, .inl ⟨rfl, rfl⟩⟩
    | @broken e w w' t t' _ h hbroke hle =>
      obtain ⟨message, failure, hnext, hwrite, rfl⟩ := hbroke
      obtain ⟨after, hafter⟩ := hle
      obtain ⟨bs, hframes, hwritten⟩ := h.sent
      obtain ⟨part, hpart, hfront⟩ := Transport.writeFrame_torn hwrite
      rw [List.nil_append] at hwritten
      refine ⟨t.host.log, .wrote message :: after, bs, part, hframes, ?_, ?_,
        .inr ⟨message, after, failure, w.host.output, rfl, hwritten, hwrite, rfl, hfront⟩⟩
      · rw [← hwritten]
        exact hpart
      · rw [← hfinal, ← hafter, hnext, List.append_assoc]
        rfl
  have hmessages : messages l'.host.log = messages done ++ messages more := by
    rw [hsplit, messages_append]
  have hresponses := hconversation.responses
  rw [responses, hmessages] at hresponses
  rw [hmessages] at hnumbered
  have hseqs := hnumbered.of_append.seqs
  simp only [fresh, Server.new, UInt64.zero_add] at hseqs
  refine ⟨messages done, messages more, bs, part, hframes, hwritten, hseqs, hresponses, ?_⟩
  rcases hmore with ⟨rfl, rfl⟩ | ⟨message, after, failure, before, rfl, hmore⟩
  · exact .inl ⟨rfl, rfl⟩
  · exact .inr ⟨message, messages after, failure, before, rfl, hmore⟩

omit [Write W] [DebugBackend β ω] in
theorem arrived_append (messages : List Value) (reader : List (Except TransportError Value)) :
    arrived (messages.map .ok ++ reader) = messages ++ arrived reader := by
  induction messages with
  | nil => rfl
  | cons message messages ih => exact congrArg (message :: ·) ih

/-- A client frames its messages and sends them; they arrive in any pieces, and what arrives may
end inside a frame. The requests among them, up to the first `disconnect`, are served, as far as
the connection takes what is written. -/
theorem framed_requests_served (backend : β) (host : ω) {output : W}
    (houtput : Write.written output = []) {payloads : List ByteVec} {messages : List Value}
    (hmessages : payloads.map (fun p => json.fromSlice p.bytes) = messages.map .ok)
    {part : List UInt8} {cut : ByteVec} (hcut : cut.bytes ≠ [])
    (hpart : part <+: Transport.frame cut.bytes) (hall : part ≠ Transport.frame cut.bytes)
    {input : Buffer}
    (hinput : input.bytes = (payloads.flatMap fun p => Transport.frame p.bytes) ++ part) :
    Served (untilDisconnect (messages.filterMap Request.fromValue))
      (Server.runBuffered (received json input) (connected json backend host output)) := by
  obtain ⟨b', hb', hreceived⟩ := received_frames hmessages hinput
  have hrest : arrived (received json b') = [] := by
    by_cases hnone : part = []
    · rw [received_end (hb'.trans hnone)]
      rfl
    · obtain ⟨e, he⟩ := received_cut hcut (b := b') (hb'.symm ▸ hpart)
        (by rwa [hb']) (by rwa [hb'])
      rw [he]
      rfl
  have hserved : served (received json input) =
      untilDisconnect (messages.filterMap Request.fromValue) := by
    rw [served, hreceived, arrived_append, hrest, List.append_nil]
  rw [← hserved]
  exact wire_served backend host houtput input

end Connections

/-! ### A client that hangs up -/

/-- The one request, and the response to it, as they are written. -/
def hangUp : ByteVec where
  bytes := ByteIO.encodeUtf8 "\x7b\"seq\":1,\"command\":\"disconnect\"\x7d".toList
  bounded := by decide

def hungUp : ByteVec where
  bytes := ByteIO.encodeUtf8 ("\x7b\"body\":\x7b\x7d,\"command\":\"disconnect\"," ++
    "\"request_seq\":1,\"seq\":1,\"success\":true,\"type\":\"response\"\x7d").toList
  bounded := by decide

/-- JSON, as far as this conversation goes. -/
def hangUpJson : JsonCodec Value String where
  toVec message :=
    if (message.get "command").bind Value.asStr = some "disconnect" then .ok hungUp
    else .error "no other message is written"
  fromSlice bytes :=
    if bytes = hangUp.bytes then
      .ok (.object [("command", .string "disconnect"), ("seq", .ofU64 1)])
    else .error "EOF while parsing a value"

/-- The frame arrives in two pieces, cut inside its header. -/
def hangUpInput : Buffer :=
  [⟨(Transport.frame hangUp.bytes).take 9, by decide⟩,
    ⟨(Transport.frame hangUp.bytes).drop 9, by decide⟩]

/-- A sink that takes 20 bytes, and then no more. -/
structure Narrow where
  bytes : List UInt8
  bounded : bytes.length ≤ 20

instance : Write Narrow where
  writeAll bs w :=
    if h : (w.bytes ++ bs).length ≤ 20 then (.ok (), ⟨w.bytes ++ bs, h⟩)
    else (.error ⟨28⟩, ⟨(w.bytes ++ bs).take 20, List.length_take_le _ _⟩)
  flush w := (.ok (), w)
  written w := w.bytes
  written_writeAll := by
    intro bs w w' h
    split at h
    · obtain ⟨-, rfl⟩ := Prod.mk.inj h
      rfl
    · cases h
  written_torn := by
    intro bs w w' e h
    split at h
    · cases h
    · obtain ⟨-, rfl⟩ := Prod.mk.inj h
      refine ⟨bs.take (20 - w.bytes.length), List.take_prefix _ _, ?_⟩
      change (w.bytes ++ bs).take 20 = _
      rw [List.take_append, List.take_of_length_le w.bounded]
  written_flush _ := rfl
  written_length_lt w := Nat.lt_of_le_of_lt w.bounded (by decide)

/-- The response is written, or its header breaks off. -/
theorem framed_requests_served_hangUp :
    Served [⟨1, "disconnect", .null⟩]
      (@Server.runBuffered StubBackend _ _ Wired.debugBackend (received hangUpJson hangUpInput)
        (connected hangUpJson StubBackend.new () ByteVec.empty)) ∧
    ∃ run, run = @Server.runBuffered StubBackend _ _ Wired.debugBackend
        (received hangUpJson hangUpInput)
        (connected hangUpJson StubBackend.new () (⟨[], by decide⟩ : Narrow)) ∧
      Write.written (final run).host.output = ByteIO.encodeUtf8 "Content-Length: 91\r\n".toList ∧
      Served [⟨1, "disconnect", .null⟩] run := by
  have hrequests : [hangUp].map (fun p => hangUpJson.fromSlice p.bytes) =
      [.object [("command", .string "disconnect"), ("seq", .ofU64 1)]].map .ok := rfl
  have hinput : hangUpInput.bytes =
      ([hangUp].flatMap fun p => Transport.frame p.bytes) ++ [] := by decide
  have hreceived : received hangUpJson hangUpInput =
      [.ok (.object [("command", .string "disconnect"), ("seq", .ofU64 1)])] := by
    obtain ⟨b', hb', h⟩ := received_frames hrequests hinput
    rw [h, received_end hb']
    rfl
  refine ⟨framed_requests_served StubBackend.new () (show Write.written ByteVec.empty = [] from rfl)
    hrequests (show hangUp.bytes ≠ [] by decide) List.nil_prefix (by decide) hinput, _, rfl, ?_, ?_⟩
  · rw [hreceived]
    decide +kernel
  · exact framed_requests_served StubBackend.new ()
      (show Write.written (⟨[], by decide⟩ : Narrow) = [] from rfl) hrequests
      (show hangUp.bytes ≠ [] by decide) List.nil_prefix (by decide) hinput

end Mirrorscope.Dap
