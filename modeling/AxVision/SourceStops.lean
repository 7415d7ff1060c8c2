import AxVision.TransitionRuns

/-!
# Stopping the frame source

The worker of the `PreProcess` node handles `kMsgAppStart` by starting the
VDEC receive thread and the FFmpeg thread; the main thread calls `StopSources`
from `ExitPipeline` and again from the destructor. A label is one access to
data the threads share, or one call into the decoder. The application sends
`kMsgAppStart` once.
-/

namespace SourceStops

open TransitionRuns

/-- The worker in `Start`, whose first part is `VdecHelper::Decode`. -/
inductive Start where
  /-- `kMsgAppStart` has not been taken from the queue -/
  | waiting
  | startRecvStream
  | setCallback
  | clearStop
  | createRecv
  | recordRecv
  | createFfmpeg
  | recordFfmpeg
  | handled
  deriving DecidableEq, Repr

/-- The main thread in `StopSources`, from `writeEof` to `draining` inside
`VdecHelper::StopDecode`. -/
inductive Stop where
  /-- no call is in progress -/
  | idle
  | stopFfmpeg
  | writeEof
  | setStop
  | stopRecvStream
  | testRecv
  | joinRecv
  | clearRecv
  | draining (i : Nat)
  | exchangeFfmpeg
  | joinFfmpeg
  deriving DecidableEq, Repr

/-- `RecvStreamFunc`. -/
inductive Recv where
  | absent
  | checking
  | fetching
  | delivering
  | ended
  deriving DecidableEq, Repr

/-- `FFmpegDecoder::Decode` in the thread of `FFmpegDecodeCallbackFunc`. -/
inductive Demux where
  | absent
  | opening
  | reading
  | receiving
  | delivering
  | ended
  deriving DecidableEq, Repr

structure State where
  sourcesStopped : Bool := false
  /-- `FFmpegDecoder::is_stop_` -/
  ffmpegStop : Bool := false
  /-- `VdecHelper::is_stop_` -/
  vdecStop : Bool := false
  callback : Bool := false
  recvStarted : Bool := false
  ffmpegStarted : Bool := false
  worker : Start := .waiting
  main : Stop := .idle
  recv : Recv := .absent
  ffmpeg : Demux := .absent
  /-- some call of `StopSources` has returned -/
  returned : Bool := false
  deriving DecidableEq, Repr

/-- What `AX_VDEC_GetChnFrame` answers to the receive thread. -/
inductive Fetch where
  | frame
  /-- no data yet, or an error after which the loop continues -/
  | again
  /-- `AX_ERR_VDEC_FLOW_END` or an unexpected code -/
  | finished
  deriving DecidableEq, Repr

inductive Label where
  /-- `ok`: what the called function answers, where it can fail -/
  | worker (ok : Bool)
  /-- `last`: the drain loop breaks in this iteration -/
  | main (last : Bool)
  | recv (answer : Fetch)
  /-- `ok`: the open, the read or the filter succeeded; `video`: the packet is
  of the video stream -/
  | ffmpeg (ok video : Bool)
  deriving DecidableEq, Repr

def kMaxDrainIters : Nat := 100

/-- `Start` goes on to the FFmpeg thread whatever `VdecHelper::Decode` returns. -/
def start (s : State) (ok : Bool) : Option State :=
  match s.worker with
  | .waiting => some { s with worker := .startRecvStream }
  | .startRecvStream => some { s with worker := if ok then .setCallback else .createFfmpeg }
  | .setCallback => some { s with callback := true, worker := .clearStop }
  | .clearStop => some { s with vdecStop := false, worker := .createRecv }
  | .createRecv =>
    if ok then some { s with recv := .checking, worker := .recordRecv }
    else some { s with worker := .createFfmpeg }
  | .recordRecv => some { s with recvStarted := true, worker := .createFfmpeg }
  | .createFfmpeg =>
    if ok then some { s with ffmpeg := .opening, worker := .recordFfmpeg }
    else some { s with worker := .handled }
  | .recordFfmpeg => some { s with ffmpegStarted := true, worker := .handled }
  | .handled => none

def Recv.running : Recv → Bool
  | .absent => false
  | .ended => false
  | _ => true

def Demux.running : Demux → Bool
  | .absent => false
  | .ended => false
  | _ => true

/-- `pthread_join` blocks while the thread runs. -/
def stopSources (s : State) (last : Bool) : Option State :=
  match s.main with
  | .idle =>
    if s.sourcesStopped then some { s with returned := true }
    else some { s with sourcesStopped := true, main := .stopFfmpeg }
  | .stopFfmpeg => some { s with ffmpegStop := true, main := .writeEof }
  | .writeEof => some { s with main := .setStop }
  | .setStop => some { s with vdecStop := true, main := .stopRecvStream }
  | .stopRecvStream => some { s with main := .testRecv }
  | .testRecv => some { s with main := if s.recvStarted then .joinRecv else .draining 0 }
  | .joinRecv => if s.recv.running then none else some { s with main := .clearRecv }
  | .clearRecv => some { s with recvStarted := false, main := .draining 0 }
  | .draining i =>
    if last = true ∨ i + 1 = kMaxDrainIters then some { s with main := .exchangeFfmpeg }
    else some { s with main := .draining (i + 1) }
  | .exchangeFfmpeg =>
    if s.ffmpegStarted then some { s with ffmpegStarted := false, main := .joinFfmpeg }
    else some { s with main := .idle, returned := true }
  | .joinFfmpeg =>
    if s.ffmpeg.running then none else some { s with main := .idle, returned := true }

def recvStreamFunc (s : State) (answer : Fetch) : Option State :=
  match s.recv with
  | .checking => some { s with recv := if s.vdecStop then .ended else .fetching }
  | .fetching =>
    match answer with
    | .frame => some { s with recv := if s.callback then .delivering else .checking }
    | .again => some { s with recv := .checking }
    | .finished => some { s with recv := .ended }
  | .delivering => some { s with recv := .checking }
  | _ => none

/-- `FrameProcessCallbackFunc` returns 0, so `process_ok` stays true. -/
def decode (s : State) (ok video : Bool) : Option State :=
  match s.ffmpeg with
  | .opening => some { s with ffmpeg := if ok then .reading else .ended }
  | .reading =>
    if ok = true ∧ s.ffmpegStop = false then
      some { s with ffmpeg := if video then .receiving else .reading }
    else some { s with ffmpeg := .ended }
  | .receiving =>
    some { s with ffmpeg := if ok = true ∧ s.ffmpegStop = false then .delivering else .reading }
  | .delivering => some { s with ffmpeg := .receiving }
  | _ => none

def step (s : State) : Label → Option State
  | .worker ok => start s ok
  | .main last => stopSources s last
  | .recv answer => recvStreamFunc s answer
  | .ffmpeg ok video => decode s ok video

def source : Machine State Label where
  start := {}
  step := step

/-- `StopSources` has gone past its test of `recv_started_`. -/
def recvTested (s : State) : Bool :=
  s.sourcesStopped && match s.main with
    | .stopFfmpeg => false
    | .writeEof => false
    | .setStop => false
    | .stopRecvStream => false
    | .testRecv => false
    | _ => true

/-- `StopSources` has gone past its exchange of `ffmpeg_started_`. -/
def ffmpegTested (s : State) : Bool :=
  s.sourcesStopped && match s.main with
    | .idle => true
    | .joinFfmpeg => true
    | _ => false

/-- No thread is created after `StopSources` has tested its flag, and the test
does not fall between the creation of a thread and the store of its flag. -/
def onTime (s : State) : Label → Bool
  | .worker ok =>
    match s.worker with
    | .createRecv => !ok || !recvTested s
    | .createFfmpeg => !ok || !ffmpegTested s
    | _ => true
  | .main _ =>
    match s.main with
    | .testRecv => s.worker ≠ .recordRecv
    | .exchangeFfmpeg => s.worker ≠ .recordFfmpeg
    | _ => true
  | _ => true

def OnTime (s : State) (l : Label) : Prop := onTime s l = true

/-- Before the test of its flag a running thread is recorded or about to be;
after the test it runs at most while it is joined. -/
structure Tracked (running tested started recording joining : Bool) : Prop where
  known : running = true → tested = false → started = true ∨ recording = true
  gone : tested = true → running = true → joining = true

section ThreadLaws

variable {running tested started recording joining : Bool}

theorem Tracked.not_running : Tracked false tested started recording joining where
  known h := by cases h
  gone _ h := by cases h

theorem Tracked.created : Tracked running false started true joining where
  known _ _ := Or.inr rfl
  gone h := by cases h

theorem Tracked.recorded (thread : Tracked running tested started true joining) :
    Tracked running tested true false joining where
  known _ _ := Or.inl rfl
  gone := thread.gone

/-- The test decides whether the thread is joined. -/
theorem Tracked.decided (thread : Tracked running false started recording joining)
    (settled : recording = false) : Tracked running tested started recording started where
  known h _ := thread.known h rfl
  gone _ h := (thread.known h rfl).resolve_right (by simp [settled])

theorem Tracked.cleared (thread : Tracked running true started recording joining) :
    Tracked running true false recording joining where
  known _ h := by cases h
  gone := thread.gone

end ThreadLaws

structure Final (s : State) : Prop where
  recv : Tracked s.recv.running (recvTested s) s.recvStarted (s.worker = .recordRecv)
    (s.main = .joinRecv)
  ffmpeg : Tracked s.ffmpeg.running (ffmpegTested s) s.ffmpegStarted (s.worker = .recordFfmpeg)
    (s.main = .joinFfmpeg)
  /-- only a call that has not returned stands between two of its steps -/
  calling : s.main ≠ .idle → s.sourcesStopped = true ∧ s.returned = false
  stopped : s.returned = true → s.sourcesStopped = true

theorem start_final : Final source.start where
  recv := .not_running
  ffmpeg := .not_running
  calling h := absurd rfl h
  stopped h := by cases h

theorem worker_final {s t : State} {ok : Bool} (inv : Final s) (time : OnTime s (.worker ok))
    (h : start s ok = some t) : Final t := by
  obtain ⟨recv, ffmpeg, calling, stopped⟩ := inv
  obtain ⟨sourcesStopped, ffmpegStop, vdecStop, callback, recvStarted, ffmpegStarted, worker, main,
    recvThread, ffmpegThread, returned⟩ := s
  cases worker with
  | createRecv =>
    cases ok with
    | false =>
      cases h
      exact ⟨recv, ffmpeg, calling, stopped⟩
    | true =>
      have early : recvTested ⟨sourcesStopped, ffmpegStop, vdecStop, callback, recvStarted,
          ffmpegStarted, .createRecv, main, recvThread, ffmpegThread, returned⟩ = false := by
        simpa [OnTime, onTime] using time
      cases h
      refine ⟨?_, ffmpeg, calling, stopped⟩
      have untested : recvTested ⟨sourcesStopped, ffmpegStop, vdecStop, callback, recvStarted,
          ffmpegStarted, .recordRecv, main, .checking, ffmpegThread, returned⟩ = false := early
      rw [untested]
      exact .created
  | createFfmpeg =>
    cases ok with
    | false =>
      cases h
      exact ⟨recv, ffmpeg, calling, stopped⟩
    | true =>
      have early : ffmpegTested ⟨sourcesStopped, ffmpegStop, vdecStop, callback, recvStarted,
          ffmpegStarted, .createFfmpeg, main, recvThread, ffmpegThread, returned⟩ = false := by
        simpa [OnTime, onTime] using time
      cases h
      refine ⟨recv, ?_, calling, stopped⟩
      have untested : ffmpegTested ⟨sourcesStopped, ffmpegStop, vdecStop, callback, recvStarted,
          ffmpegStarted, .recordFfmpeg, main, recvThread, .opening, returned⟩ = false := early
      rw [untested]
      exact .created
  | recordRecv =>
    cases h
    exact ⟨recv.recorded, ffmpeg, calling, stopped⟩
  | recordFfmpeg =>
    cases h
    exact ⟨recv, ffmpeg.recorded, calling, stopped⟩
  | startRecvStream =>
    cases h
    cases ok <;> exact ⟨recv, ffmpeg, calling, stopped⟩
  | handled => cases h
  | _ =>
    cases h
    exact ⟨recv, ffmpeg, calling, stopped⟩

theorem stop_final {s t : State} {last : Bool} (inv : Final s) (time : OnTime s (.main last))
    (h : stopSources s last = some t) : Final t := by
  obtain ⟨recv, ffmpeg, calling, stopped⟩ := inv
  obtain ⟨sourcesStopped, ffmpegStop, vdecStop, callback, recvStarted, ffmpegStarted, worker, main,
    recvThread, ffmpegThread, returned⟩ := s
  cases main with
  | idle =>
    cases sourcesStopped with
    | true =>
      cases h
      exact ⟨recv, ffmpeg, fun away => absurd rfl away, fun _ => rfl⟩
    | false =>
      cases h
      have before : returned = false := by
        cases returned with
        | false => rfl
        | true => exact absurd (stopped rfl) Bool.false_ne_true
      exact ⟨recv, ffmpeg, fun _ => ⟨rfl, before⟩, fun _ => rfl⟩
  | testRecv =>
    have settled : worker ≠ .recordRecv := by simpa [OnTime, onTime] using time
    have unrecorded : decide (worker = .recordRecv) = false := decide_eq_false settled
    obtain ⟨rfl, rfl⟩ : sourcesStopped = true ∧ returned = false := calling (by simp)
    cases h
    cases recvStarted with
    | false => exact ⟨recv.decided unrecorded, ffmpeg, fun _ => ⟨rfl, rfl⟩, fun _ => rfl⟩
    | true => exact ⟨recv.decided unrecorded, ffmpeg, fun _ => ⟨rfl, rfl⟩, fun _ => rfl⟩
  | joinRecv =>
    obtain ⟨rfl, rfl⟩ : sourcesStopped = true ∧ returned = false := calling (by simp)
    simp only [stopSources] at h
    split at h
    · cases h
    · rename_i ended
      have gone : recvThread.running = false := Bool.eq_false_iff.mpr ended
      cases h
      refine ⟨?_, ffmpeg, fun _ => ⟨rfl, rfl⟩, fun _ => rfl⟩
      simp only [gone]
      exact .not_running
  | clearRecv =>
    obtain ⟨rfl, rfl⟩ : sourcesStopped = true ∧ returned = false := calling (by simp)
    cases h
    exact ⟨recv.cleared, ffmpeg, fun _ => ⟨rfl, rfl⟩, fun _ => rfl⟩
  | draining i =>
    obtain ⟨rfl, rfl⟩ : sourcesStopped = true ∧ returned = false := calling (by simp)
    simp only [stopSources] at h
    split at h
    · cases h
      exact ⟨recv, ffmpeg, fun _ => ⟨rfl, rfl⟩, fun _ => rfl⟩
    · cases h
      exact ⟨recv, ffmpeg, fun _ => ⟨rfl, rfl⟩, fun _ => rfl⟩
  | exchangeFfmpeg =>
    have settled : worker ≠ .recordFfmpeg := by simpa [OnTime, onTime] using time
    have unrecorded : decide (worker = .recordFfmpeg) = false := decide_eq_false settled
    obtain ⟨rfl, rfl⟩ : sourcesStopped = true ∧ returned = false := calling (by simp)
    cases ffmpegStarted with
    | false =>
      cases h
      exact ⟨recv, ffmpeg.decided unrecorded, fun away => absurd rfl away, fun _ => rfl⟩
    | true =>
      cases h
      refine ⟨recv, ?_, fun _ => ⟨rfl, rfl⟩, fun _ => rfl⟩
      have joined : Tracked ffmpegThread.running true true (worker = .recordFfmpeg) true :=
        ffmpeg.decided unrecorded
      exact joined.cleared
  | joinFfmpeg =>
    obtain ⟨rfl, rfl⟩ : sourcesStopped = true ∧ returned = false := calling (by simp)
    simp only [stopSources] at h
    split at h
    · cases h
    · rename_i ended
      have gone : ffmpegThread.running = false := Bool.eq_false_iff.mpr ended
      cases h
      refine ⟨recv, ?_, fun away => absurd rfl away, fun _ => rfl⟩
      simp only [gone]
      exact .not_running
  | _ =>
    obtain ⟨rfl, rfl⟩ : sourcesStopped = true ∧ returned = false := calling (by simp)
    cases h
    exact ⟨recv, ffmpeg, fun _ => ⟨rfl, rfl⟩, fun _ => rfl⟩

/-- A thread that runs on or ends. -/
theorem Tracked.onward {running runs tested started recording joining : Bool}
    (thread : Tracked running tested started recording joining)
    (alive : runs = true → running = true) : Tracked runs tested started recording joining where
  known h := thread.known (alive h)
  gone tested h := thread.gone tested (alive h)

theorem recv_final {s t : State} {answer : Fetch} (inv : Final s)
    (h : recvStreamFunc s answer = some t) : Final t := by
  have alive : s.recv.running = true := by
    cases hr : s.recv <;> simp [recvStreamFunc, hr, Recv.running] at h ⊢
  have kept : ∃ recv, t = { s with recv := recv } := by
    unfold recvStreamFunc at h
    repeat' split at h
    all_goals first | (cases h; exact ⟨_, rfl⟩) | cases h
  obtain ⟨recv, rfl⟩ := kept
  exact ⟨inv.recv.onward fun _ => alive, inv.ffmpeg, inv.calling, inv.stopped⟩

theorem ffmpeg_final {s t : State} {ok video : Bool} (inv : Final s)
    (h : decode s ok video = some t) : Final t := by
  have alive : s.ffmpeg.running = true := by
    cases hr : s.ffmpeg <;> simp [decode, hr, Demux.running] at h ⊢
  have kept : ∃ ffmpeg, t = { s with ffmpeg := ffmpeg } := by
    unfold decode at h
    repeat' split at h
    all_goals first | (cases h; exact ⟨_, rfl⟩) | cases h
  obtain ⟨ffmpeg, rfl⟩ := kept
  exact ⟨inv.recv, inv.ffmpeg.onward fun _ => alive, inv.calling, inv.stopped⟩

theorem step_final {s t : State} {l : Label} (inv : Final s) (time : OnTime s l)
    (h : step s l = some t) : Final t := by
  cases l with
  | worker ok => exact worker_final inv time h
  | main last => exact stop_final inv time h
  | recv answer => exact recv_final inv h
  | ffmpeg ok video => exact ffmpeg_final inv h

theorem run_final {s : State} (run : ReachableBy source OnTime s) : Final s :=
  run.invariant start_final fun _ _ _ inv time h => step_final inv time h

theorem returned_step {s t : State} {l : Label} (done : s.returned = true)
    (h : step s l = some t) : t.returned = true := by
  cases l with
  | worker ok =>
    simp only [step, start] at h
    repeat' split at h
    all_goals first | (cases h; exact done) | cases h
  | main last =>
    simp only [step, stopSources] at h
    repeat' split at h
    all_goals first | (cases h; exact done) | (cases h; rfl) | cases h
  | recv answer =>
    simp only [step, recvStreamFunc] at h
    repeat' split at h
    all_goals first | (cases h; exact done) | cases h
  | ffmpeg ok video =>
    simp only [step, decode] at h
    repeat' split at h
    all_goals first | (cases h; exact done) | cases h

/-- While every thread is created and recorded before `StopSources` tests its
flag: once a call of `StopSources` has returned, no thread of the node runs,
then or at any later time. -/
theorem stopped_for_good {s t : State} (run : ReachableBy source OnTime s)
    (done : s.returned = true) (later : Steps source OnTime s t) :
    t.recv.running = false ∧ t.ffmpeg.running = false := by
  have inv : Final t := run_final (run.extend later)
  have done : t.returned = true :=
    Steps.preserves (I := fun s => s.returned = true) (fun _ _ _ h _ step => returned_step h step)
      later done
  have flagged : t.sourcesStopped = true := inv.stopped done
  have idle : t.main = .idle := by
    by_contra away
    have unreturned := (inv.calling away).2
    rw [done] at unreturned
    cases unreturned
  constructor
  · by_contra running
    have joining := inv.recv.gone (by simp [recvTested, flagged, idle])
      (by simpa using running)
    simp [idle] at joining
  · by_contra running
    have joining := inv.ffmpeg.gone (by simp [ffmpegTested, flagged, idle])
      (by simpa using running)
    simp [idle] at joining

/-- Both threads are started, and a frame is on its way. -/
def streaming : List Label :=
  List.replicate 8 (.worker true) ++
    [.recv .again, .recv .frame, .ffmpeg true true, .ffmpeg true true, .ffmpeg true true]

/-- `StopSources` up to the wait for the receive thread, which sees `is_stop_`;
then up to the wait for the FFmpeg thread, which is inside its callback. -/
def stopping : List Label :=
  List.replicate 6 (.main true) ++ [.recv .again, .recv .again] ++
    List.replicate 4 (.main true) ++
    [.ffmpeg true true, .ffmpeg true true, .ffmpeg true true, .main true]

theorem streaming_stopped :
    ∃ s, source.execWhile onTime source.start (streaming ++ stopping) = some s ∧
      s.returned = true ∧ s.recv.running = false ∧ s.ffmpeg.running = false := by
  obtain ⟨s, run, done⟩ : ∃ s,
      source.execWhile onTime source.start (streaming ++ stopping) = some s ∧
      s.returned = true := ⟨_, rfl, rfl⟩
  have reached := Machine.execWhile_steps run
  exact ⟨s, run, done, stopped_for_good reached done (.refl s)⟩

/-- The whole call falls into the poll interval of the worker, which then takes
`kMsgAppStart` from its queue. -/
def stoppedFirst : List Label :=
  List.replicate 8 (.main true) ++ List.replicate 8 (.worker true)

/-- Both threads run after `StopSources` has returned. -/
theorem started_after_stop :
    ¬∀ s, Reachable source s → s.returned = true →
      s.recv.running = false ∧ s.ffmpeg.running = false := by
  intro claim
  obtain ⟨s, run, done, running⟩ : ∃ s,
      source.exec source.start stoppedFirst = some s ∧ s.returned = true ∧
      s.recv.running = true := ⟨_, rfl, rfl, rfl⟩
  have gone := (claim s (Machine.exec_reachable run) done).1
  rw [running] at gone
  cases gone

end SourceStops
