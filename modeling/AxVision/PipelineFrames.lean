import AxVision.PipelineStages

/-!
# The frames of the pipeline

Each queue has one thread that sends frames into it, and this thread makes one
call after the other; so what a queue takes of the frames it takes in their order.
A node handles what it pops in order and sends a frame on at most once. Hence the
encoder is given frames in the order in which they were decoded.
-/

namespace PipelineFrames

open TransitionRuns SchedulerRuns MessageQueues ReplacedEntries PipelineStages

universe u v

section Lists

variable {α : Type u} {β : Type v} {g : α → Option β} {l : List α} {j : Nat} {a b : α}

theorem filterMap_split (h : l[j]? = some a) :
    ∃ front back, l = front ++ a :: back ∧ front.length = j := by
  obtain ⟨bound, rfl⟩ := List.getElem?_eq_some_iff.mp h
  exact ⟨l.take j, l.drop (j + 1), by simp, by simp; omega⟩

/-- Replacing an entry by one with the same value. -/
theorem filterMap_set_same (h : l[j]? = some a) (same : g b = g a) :
    (l.set j b).filterMap g = l.filterMap g := by
  obtain ⟨front, back, rfl, rfl⟩ := filterMap_split h
  simp [List.filterMap_cons, same]

/-- Behind the entry nothing has a value, so a new value comes last. -/
theorem filterMap_set_last (h : l[j]? = some a) (before : g a = none)
    (later : ∀ k c, j < k → l[k]? = some c → g c = none) :
    (l.set j b).filterMap g = l.filterMap g ++ (g b).toList := by
  obtain ⟨front, back, rfl, rfl⟩ := filterMap_split h
  have rest : back.filterMap g = [] := by
    refine List.filterMap_eq_nil_iff.mpr fun c mem => ?_
    obtain ⟨k, hk⟩ := List.mem_iff_getElem?.mp mem
    refine later (front.length + 1 + k) c (by omega) ?_
    rw [List.getElem?_append_right (by omega)]
    simpa [Nat.add_sub_cancel_left, Nat.add_assoc, Nat.add_comm 1 k] using hk
  have put : (front ++ a :: back).set front.length b = front ++ b :: back := by simp
  rw [put, List.filterMap_append, List.filterMap_append, List.filterMap_cons, List.filterMap_cons,
    before, rest]
  cases g b <;> simp

/-- Only one entry of the list passes. -/
theorem countP_le_one {p : α → Bool} (only : ∀ i a, l[i]? = some a → p a = true → i = j) :
    l.countP p ≤ 1 := by
  induction l generalizing j with
  | nil => simp
  | cons a rest ih =>
    cases passes : p a with
    | true =>
      have here : 0 = j := only 0 a rfl passes
      have others : rest.countP p = 0 := by
        refine List.countP_eq_zero.mpr fun b mem there => ?_
        obtain ⟨i, hi⟩ := List.mem_iff_getElem?.mp mem
        have later : i + 1 = j := only (i + 1) b (by simpa using hi) there
        omega
      rw [List.countP_cons_of_pos passes, others]
    | false =>
      rw [List.countP_cons_of_neg (by simp [passes])]
      refine ih (j := j - 1) fun i b hi there => ?_
      have later : i + 1 = j := only (i + 1) b (by simpa using hi) there
      omega

end Lists

variable {I : Type u} {F : Type v}

/-- What the handler of a node takes its data for. -/
def Fits : Node → Payload I F → Prop
  | .preProcess, .imageData _ => True
  | .infProcess, .preData _ _ => True
  | .busProcess, .infData _ _ => True
  | .encProcess, .busData _ => True
  | _, _ => False

def inputId : Node → Int
  | .preProcess => kMsgVdecData
  | .infProcess => kMsgPreprocData
  | .busProcess => kMsgInfprocData
  | .encProcess => kMsgBusprocData

/-- A frame for the node, or a message from the main thread, without data. -/
def Typed (node : Node) (message : TaskMessage (Payload I F)) : Prop :=
  message.msgId = inputId node ∧ Fits node message.data ∨
    (message.msgId = kMsgAppStart ∨ message.msgId = kMsgAppExit) ∧ message.data = .null

def messageImage (message : TaskMessage (Payload I F)) : Option I := message.data.image

def callImage (call : Call (Payload I F)) : Option I := messageImage call.message

/-- The frame of a call that has put it into the queue. -/
def enteredImage (call : Call (Payload I F)) : Option I :=
  if call.stage = .returned kOk then callImage call else none

/-- The frames sent to a queue, those that it took and those that were popped. -/
def offered (q : MessageQueues.State (Payload I F)) : List I := q.calls.filterMap callImage

def entered (q : MessageQueues.State (Payload I F)) : List I :=
  (q.accepted.map Prod.snd).filterMap messageImage

def popped (q : MessageQueues.State (Payload I F)) : List I := q.handed.filterMap messageImage

/-- One thread makes the calls with frames, one after the other; `last` is the one
that may not have returned. -/
structure Link (node : Node) (q : MessageQueues.State (Payload I F)) (last : Option Nat) :
    Prop where
  conserved : Conserved q
  typed : ∀ call ∈ q.calls, Typed node call.message
  settled : ∀ j call, q.calls[j]? = some call → callImage call ≠ none → last ≠ some j →
    ∃ error, call.stage = .returned error
  latest : ∀ i, last = some i → ∀ j call, i < j → q.calls[j]? = some call → callImage call = none
  entered_eq : entered q = q.calls.filterMap enteredImage

section Link

variable {node : Node} {q t : MessageQueues.State (Payload I F)} {last : Option Nat}

/-- The queue takes frames of those that are sent, in their order. -/
theorem Link.entered_sublist (h : Link node q last) : (entered q).Sublist (offered q) := by
  rw [h.entered_eq, offered]
  have every : ∀ calls : List (Call (Payload I F)),
      (calls.filterMap enteredImage).Sublist (calls.filterMap callImage) := by
    intro calls
    induction calls with
    | nil => exact List.Sublist.slnil
    | cons call rest ih =>
      rw [List.filterMap_cons, List.filterMap_cons, enteredImage]
      split_ifs
      · cases callImage call with
        | none => exact ih
        | some image => exact ih.cons_cons image
      · cases callImage call with
        | none => exact ih
        | some image => exact ih.cons image
  exact every q.calls

theorem Link.popped_front (h : Link node q last) : popped q <+: entered q := by
  rw [popped, entered, ← h.conserved.flow, List.filterMap_append]
  exact List.prefix_append _ _

/-- The messages that were popped were sent. -/
theorem Link.handed_typed (h : Link node q last) {message : TaskMessage (Payload I F)}
    (mem : message ∈ q.handed) : Typed node message := by
  have accepted : message ∈ q.accepted.map Prod.snd := by
    rw [← h.conserved.flow]
    exact List.mem_append_left _ mem
  obtain ⟨⟨j, m⟩, inside, rfl⟩ := List.mem_map.mp accepted
  have call := (h.conserved.kept j m).mp inside
  exact h.typed _ (List.mem_of_getElem? call)

theorem returned_iff {j : Nat} {call : Call (Payload I F)} (here : q.calls[j]? = some call) :
    returned q j = true ↔ ∃ error, call.stage = .returned error := by
  simp only [returned, here]
  cases call.stage <;> simp

/-- The thread has come back from its last call. -/
theorem Link.closed (h : Link node q last) (ended : ∀ j, last = some j → returned q j = true) :
    Link node q none where
  conserved := h.conserved
  typed := h.typed
  settled j call here frame _ := by
    by_cases latest : last = some j
    · exact (returned_iff here).mp (ended j latest)
    · exact h.settled j call here frame latest
  latest _ none := by cases none
  entered_eq := h.entered_eq

/-- A call begins; only one with a frame becomes the last. -/
theorem Link.begin (h : Link node q last) {call : Call (Payload I F)}
    (fresh : call.stage = .checking ∨ call.stage = .returned kDestInvalid)
    (typed : Typed node call.message) {last' : Option Nat}
    (same : callImage call = none → last' = last)
    (next : callImage call ≠ none → last = none ∧ last' = some q.calls.length) :
    Link node (q.begin call) last' where
  conserved := begin_conserved h.conserved fresh
  typed c mem := by
    rcases List.mem_append.mp mem with old | new
    · exact h.typed c old
    · exact List.mem_singleton.mp new ▸ typed
  settled j c here frame other := by
    rcases appended_cases here with old | ⟨place, rfl⟩
    · by_cases image : callImage call = none
      · exact h.settled j c old frame (same image ▸ other)
      · exact h.settled j c old frame (by simp [(next image).1])
    · exact absurd (place ▸ (next frame).2) other
  latest i lastIs j c after here := by
    by_cases image : callImage call = none
    · rcases appended_cases here with old | ⟨-, rfl⟩
      · exact h.latest i (same image ▸ lastIs) j c after old
      · exact image
    · have bound := lt_of_entry here
      rw [(next image).2] at lastIs
      cases lastIs
      simp only [MessageQueues.State.begin, List.length_append, List.length_singleton] at bound
      omega
  entered_eq := by
    have unentered : enteredImage call = none := by
      rcases fresh with stage | stage <;> simp [enteredImage, stage, kDestInvalid, kOk]
    change entered q = (q.calls ++ [call]).filterMap enteredImage
    rw [h.entered_eq, List.filterMap_append]
    simp [unentered]

/-- A call that has not returned moves on. -/
theorem Link.moved (h : Link node q last) {j : Nat} {call : Call (Payload I F)} {stage : CallStage}
    (here : q.calls[j]? = some call) (unreturned : ∀ error, call.stage ≠ .returned error)
    (conserved : Conserved t) (calls : t.calls = q.calls.set j { call with stage := stage })
    (took : entered t = entered q ++ (enteredImage { call with stage := stage }).toList) :
    Link node t last where
  conserved := conserved
  typed c mem := by
    rw [calls] at mem
    rcases mem_replaced mem with old | rfl
    · exact h.typed c old
    · exact h.typed call (List.mem_of_getElem? here)
  settled k c there frame other := by
    rw [calls] at there
    rcases replaced_cases here there with ⟨rfl, rfl⟩ | ⟨-, old⟩
    · obtain ⟨error, settled⟩ := h.settled k call here frame other
      exact absurd settled (unreturned error)
    · exact h.settled k c old frame other
  latest i lastIs k c after there := by
    rw [calls] at there
    rcases replaced_cases here there with ⟨rfl, rfl⟩ | ⟨-, old⟩
    · exact h.latest i lastIs k call after here
    · exact h.latest i lastIs k c after old
  entered_eq := by
    have before : enteredImage call = none := if_neg (unreturned kOk)
    rw [took, calls, h.entered_eq]
    by_cases image : callImage call = none
    · have after : enteredImage { call with stage := stage } = none := by
        have same : callImage { call with stage := stage } = none := image
        rw [enteredImage, same, ite_self]
      rw [filterMap_set_same here (after.trans before.symm), after, Option.toList_none,
        List.append_nil]
    · have lastIs : last = some j := by
        by_contra other
        obtain ⟨error, settled⟩ := h.settled j call here image other
        exact unreturned error settled
      rw [filterMap_set_last here before]
      intro k c after there
      rw [enteredImage, h.latest j lastIs k c after there, ite_self]

/-- One step of a call changes neither what was sent nor what was popped. -/
theorem Link.advance (h : Link node q last) {id j : Nat} {now : Int}
    (run : MessageQueues.step id q (.advance j now) = some t) :
    Link node t last ∧ offered t = offered q ∧ t.handed = q.handed ∧ t.slot = q.slot := by
  have conserved := step_conserved h.conserved run
  simp only [MessageQueues.step] at run
  split at run
  · rename_i call here
    have same : ∀ stage, offered { q with calls := q.calls.set j { call with stage := stage } } =
        offered q := fun stage => filterMap_set_same here rfl
    cases stage : call.stage with
    | checking =>
      simp only [MessageQueues.State.advance, stage] at run
      cases run
      refine ⟨h.moved here (by simp [stage]) conserved rfl ?_, same _, rfl, rfl⟩
      split <;> simp [enteredImage, kThreadAbnormal, kOk, entered, MessageQueues.State.setCall]
    | pushing =>
      simp only [MessageQueues.State.advance, stage] at run
      split at run
      · cases run
        refine ⟨h.moved here (by simp [stage]) conserved rfl ?_, same _, rfl, rfl⟩
        simp only [entered, List.map_append, List.filterMap_append, enteredImage, if_true]
        cases image : messageImage call.message <;> simp [image, callImage]
      · cases run
        refine ⟨h.moved here (by simp [stage]) conserved rfl ?_, same _, rfl, rfl⟩
        simp [enteredImage, entered, MessageQueues.State.setCall]
    | counting =>
      simp only [MessageQueues.State.advance, stage] at run
      cases run
      refine ⟨h.moved here (by simp [stage]) conserved rfl ?_, same _, rfl, rfl⟩
      simp [enteredImage, entered, MessageQueues.State.setCall]
    | logging total =>
      simp only [MessageQueues.State.advance, stage] at run
      cases run
      refine ⟨h.moved here (by simp [stage]) conserved rfl ?_, same _, rfl, rfl⟩
      simp [enteredImage, entered, MessageQueues.State.setCall, kEnqueue, kOk]
    | returned error =>
      simp only [MessageQueues.State.advance, stage] at run
      cases run
  · cases run

/-- A change that is neither of the calls nor of what was taken. -/
theorem Link.elsewhere (h : Link node q last) (conserved : Conserved t) (calls : t.calls = q.calls)
    (accepted : t.accepted = q.accepted) : Link node t last where
  conserved := conserved
  typed := calls ▸ h.typed
  settled := calls ▸ h.settled
  latest := calls ▸ h.latest
  entered_eq := by rw [entered, accepted, calls]; exact h.entered_eq

/-- The worker takes the first message of the queue, or leaves the queue alone. -/
theorem Link.work (h : Link node q last) {act : WorkerAct} (run : q.work act = some t) :
    Link node t last ∧ offered t = offered q ∧
      ((act = .pop true ∧ ∃ front, t.handed = q.handed ++ [front]) ∨
        (act ≠ .pop true ∧ t.handed = q.handed)) ∧
      q.slot.work false act = some t.slot := by
  have conserved := work_conserved h.conserved run
  have elsewhere : act ≠ .pop true →
      (q.slot.work false act).map (fun slot => { q with slot := slot }) = some t →
      Link node t last ∧ offered t = offered q ∧
        ((act = .pop true ∧ ∃ front, t.handed = q.handed ++ [front]) ∨
          (act ≠ .pop true ∧ t.handed = q.handed)) ∧
        q.slot.work false act = some t.slot := by
    intro other moved
    obtain ⟨slot, worked, rfl⟩ := Option.map_eq_some_iff.mp moved
    exact ⟨h.elsewhere conserved rfl rfl, rfl, Or.inr ⟨other, rfl⟩, worked⟩
  cases act with
  | pop found =>
    simp only [MessageQueues.State.work] at run
    split at run
    · rename_i slot front queue worked popped
      split at run
      · rename_i found
        cases run
        subst found
        exact ⟨h.elsewhere conserved rfl rfl, rfl, Or.inl ⟨rfl, front, rfl⟩, worked⟩
      · cases run
    · rename_i slot queue worked popped
      split at run
      · cases run
      · rename_i missing
        cases run
        exact ⟨h.elsewhere conserved rfl rfl, rfl, Or.inr ⟨by simpa using missing, rfl⟩, worked⟩
    · cases run
  | start => exact elsewhere (by simp) run
  | initReturn ok => exact elsewhere (by simp) run
  | settle => exact elsewhere (by simp) run
  | check => exact elsewhere (by simp) run
  | processReturn => exact elsewhere (by simp) run

/-- A `SendMessage` begins a call, which may find the manager gone. -/
theorem sendTo_begins {pointer : Bool} {msgId : Int} {data : Payload I F}
    (run : sendTo node q pointer msgId data = some t) :
    ∃ call : Call (Payload I F), t = q.begin call ∧ call.message.msgId = msgId ∧
      call.message.data = data ∧
      (call.stage = .checking ∨ call.stage = .returned kDestInvalid) := by
  have small : ¬((node.instanceId : Int) < 0 ∨ ((5 : Nat) : Int) ≤ node.instanceId) := by
    cases node <;> simp [Node.instanceId]
  simp only [sendTo, MessageQueues.step, if_neg small, ne_eq, not_true_eq_false, if_false] at run
  split at run
  · cases run
    exact ⟨_, rfl, rfl, rfl, Or.inl rfl⟩
  · cases run
    exact ⟨_, rfl, rfl, rfl, Or.inr rfl⟩

end Link

section Handlers

variable {node : Node} {answers : Answers F} {message : TaskMessage (Payload I F)}

/-- The frame a handler was given is passed on as the next node takes it, or written by
the last. -/
def Passes (node : Node) (image : Option I) : Effect I F → Prop
  | .nothing => True
  | .send msgId data => ∃ next, node.next = some next ∧ msgId = inputId next ∧ Fits next data ∧
      data.image = image
  | .write written => node = .encProcess ∧ image = some written
  | .fault => False

theorem process_frame (id : message.msgId = inputId node) (fits : Fits node message.data) :
    Passes node message.data.image (process answers message.msgId message.data node) := by
  cases node with
  | preProcess =>
    cases data : message.data with
    | imageData image =>
      rw [process, preProcess, if_pos (show message.msgId = kMsgVdecData from id)]
      split
      · trivial
      · split
        · trivial
        · exact ⟨.infProcess, rfl, rfl, trivial, rfl⟩
    | _ => rw [data] at fits; exact fits.elim
  | infProcess =>
    cases data : message.data with
    | preData image bytes =>
      rw [process, infProcess, if_pos (show message.msgId = kMsgPreprocData from id)]
      split
      · trivial
      · split
        · trivial
        · split
          · trivial
          · exact ⟨.busProcess, rfl, rfl, trivial, rfl⟩
    | _ => rw [data] at fits; exact fits.elim
  | busProcess =>
    cases data : message.data with
    | infData image objects =>
      rw [process, busProcess, if_pos (show message.msgId = kMsgInfprocData from id)]
      exact ⟨.encProcess, rfl, rfl, trivial, rfl⟩
    | _ => rw [data] at fits; exact fits.elim
  | encProcess =>
    cases data : message.data with
    | busData image =>
      rw [process, encProcess, if_pos (show message.msgId = kMsgBusprocData from id)]
      exact ⟨rfl, rfl⟩
    | _ => rw [data] at fits; exact fits.elim

theorem process_control (control : message.msgId = kMsgAppStart ∨ message.msgId = kMsgAppExit) :
    process answers message.msgId message.data node = .nothing := by
  have other : message.msgId ≠ inputId node := by
    rcases control with id | id <;> rw [id] <;> cases node <;> decide
  cases node <;> exact if_neg other

/-- No handler reads what is not there. -/
theorem process_passes (typed : Typed node message) :
    Passes node message.data.image (process answers message.msgId message.data node) := by
  rcases typed with ⟨id, fits⟩ | ⟨control, -⟩
  · exact process_frame id fits
  · rw [process_control control]
    trivial

theorem image_of_fits {data : Payload I F} (fits : Fits node data) : data.image ≠ none := by
  cases data with
  | null => cases node <;> exact fits.elim
  | _ => exact Option.some_ne_none _

end Handlers

section Pipeline

/-- The call that a body waits for. -/
def bodyCall : Body → Option Nat
  | .sending j => some j
  | _ => none

/-- The call with a frame into the queue of a node that may not have returned. -/
def lastCall (s : State I F) : Node → Option Nat
  | .preProcess => s.vdec
  | .infProcess => bodyCall (s.body .preProcess)
  | .busProcess => bodyCall (s.body .infProcess)
  | .encProcess => bodyCall (s.body .busProcess)

theorem lastCall_next {node next : Node} (h : node.next = some next) (s : State I F) :
    lastCall s next = bodyCall (s.body node) := by
  cases node <;> cases h <;> rfl

/-- The frames that a node's handler has run for. -/
def treated (body : Body) (q : MessageQueues.State (Payload I F)) : List I :=
  (if body = .popped then q.handed.dropLast else q.handed).filterMap messageImage

/-- Some of a list in its order, and what is lost of it. -/
def Passed (given kept lost : List I) : Prop :=
  kept.Sublist given ∧ given.length = kept.length + lost.length

theorem Passed.keep {given kept lost : List I} (h : Passed given kept lost) (image : I) :
    Passed (given ++ [image]) (kept ++ [image]) lost := by
  refine ⟨h.1.append (List.Sublist.refl _), ?_⟩
  have length := h.2
  simp only [List.length_append]
  omega

theorem Passed.lose {given kept lost : List I} (h : Passed given kept lost) (image : Option I) :
    Passed (given ++ image.toList) kept (lost ++ image.toList) := by
  refine ⟨h.1.trans (List.sublist_append_left _ _), ?_⟩
  have length := h.2
  simp only [List.length_append]
  omega

/-- What the last node passes on is written. -/
def outcome (s : State I F) (node : Node) : List I :=
  match node.next with
  | some next => offered (s.nodes next)
  | none => s.written

structure Flowing (s : State I F) : Prop where
  link : ∀ node, Link node (s.nodes node) (lastCall s node)
  source : offered (s.nodes .preProcess) = s.decoded
  passed : ∀ node, Passed (treated (s.body node) (s.nodes node)) (outcome s node) (s.discarded node)
  working : ∀ node, s.body node ≠ .waiting → (s.nodes node).slot.worker = .inProcess
  faultless : s.faults = 0

section Updates

variable {s : State I F} {node : Node} {q : MessageQueues.State (Payload I F)} {body : Body}

@[simp] theorem setNode_self : (s.setNode node q).nodes node = q := Function.update_self ..

theorem setNode_other {other : Node} (ne : other ≠ node) :
    (s.setNode node q).nodes other = s.nodes other := Function.update_of_ne ne ..

@[simp] theorem setBody_self : (s.setBody node body).body node = body := Function.update_self ..

theorem setBody_other {other : Node} (ne : other ≠ node) :
    (s.setBody node body).body other = s.body other := Function.update_of_ne ne ..

@[simp] theorem setNode_body : (s.setNode node q).body = s.body := rfl

@[simp] theorem setBody_nodes : (s.setBody node body).nodes = s.nodes := rfl

@[simp] theorem lastCall_setNode (other : Node) :
    lastCall (s.setNode node q) other = lastCall s other := by
  cases other <;> rfl

theorem outcome_setNode {other : Node} (ne : other.next ≠ some node) :
    outcome (s.setNode node q) other = outcome s other := by
  cases next : other.next with
  | none => simp only [outcome, next]; rfl
  | some m =>
    have apart : m ≠ node := fun same => ne (same ▸ next)
    simp only [outcome, next, setNode_other apart]

/-- A queue changes, but neither what it was offered nor what its worker has. -/
theorem Flowing.setNode (h : Flowing s) (link : Link node q (lastCall s node))
    (offers : offered q = offered (s.nodes node)) (handed : q.handed = (s.nodes node).handed)
    (working : s.body node ≠ .waiting → q.slot.worker = .inProcess) :
    Flowing (s.setNode node q) where
  link m := by
    rw [lastCall_setNode]
    by_cases here : m = node
    · subst here
      rwa [setNode_self]
    · rw [setNode_other here]
      exact h.link m
  source := by
    by_cases here : Node.preProcess = node
    · subst here
      rw [setNode_self, offers]
      exact h.source
    · rw [setNode_other here]
      exact h.source
  passed m := by
    have same : treated (s.body m) ((s.setNode node q).nodes m) =
        treated (s.body m) (s.nodes m) := by
      by_cases here : m = node
      · subst here
        rw [setNode_self, treated, treated, handed]
      · rw [setNode_other here]
    have kept : outcome (s.setNode node q) m = outcome s m := by
      by_cases here : m.next = some node
      · simp only [outcome, here, setNode_self, offers]
      · exact outcome_setNode here
    rw [setNode_body, same, kept]
    exact h.passed m
  working m busy := by
    by_cases here : m = node
    · subst here
      rw [setNode_self]
      exact working busy
    · rw [setNode_other here]
      exact h.working m busy
  faultless := h.faultless

end Updates

section Steps

variable {s t : State I F} {node : Node}

theorem decode_flows (h : Flowing s) {image : I} {pointer : Bool}
    (run : PipelineStages.step s (.decode image pointer) = some t) : Flowing t := by
  simp only [PipelineStages.step] at run
  split at run
  · rename_i ended
    obtain ⟨q, sent, rfl⟩ := Option.map_eq_some_iff.mp run
    obtain ⟨call, rfl, id, data, fresh⟩ := sendTo_begins sent
    have frame : callImage call = some image := by
      rw [callImage, messageImage, data]
      rfl
    have back : ∀ j, lastCall s .preProcess = some j → returned (s.nodes .preProcess) j = true := by
      intro j last
      have vdec : s.vdec = some j := last
      simpa [vdec] using ended
    have link := ((h.link .preProcess).closed back).begin fresh
      (Or.inl ⟨id, by rw [data]; trivial⟩) (fun none => by rw [frame] at none; cases none)
      (fun _ => ⟨rfl, rfl⟩)
    have offers : offered ((s.nodes .preProcess).begin call) = s.decoded ++ [image] := by
      rw [← h.source, offered, MessageQueues.State.begin, List.filterMap_append]
      simp [frame, offered]
    refine ⟨?_, ?_, ?_, ?_, h.faultless⟩
    · intro m
      cases m with
      | preProcess =>
        dsimp only
        rw [setNode_self]
        exact link
      | _ => exact h.link _
    · dsimp only
      rw [setNode_self]
      exact offers
    · intro m
      cases m with
      | preProcess =>
        dsimp only
        rw [setNode_self]
        exact h.passed .preProcess
      | _ => exact h.passed _
    · intro m busy
      cases m with
      | preProcess =>
        dsimp only
        rw [setNode_self]
        exact h.working .preProcess busy
      | _ => exact h.working _ busy
  · cases run

theorem control_flows (h : Flowing s) {exit pointer : Bool}
    (run : PipelineStages.step s (.control node exit pointer) = some t) : Flowing t := by
  obtain ⟨q, sent, rfl⟩ := Option.map_eq_some_iff.mp run
  obtain ⟨call, rfl, id, data, fresh⟩ := sendTo_begins sent
  have frameless : callImage call = none := by
    rw [callImage, messageImage, data]
    rfl
  have typed : Typed node call.message := by
    refine Or.inr ⟨?_, data⟩
    rw [id]
    cases exit
    · exact Or.inl rfl
    · exact Or.inr rfl
  refine h.setNode ((h.link node).begin fresh typed (fun _ => rfl)
    fun frame => absurd frameless frame) ?_ rfl (h.working node)
  rw [offered, MessageQueues.State.begin, List.filterMap_append]
  simp [frameless, offered]

theorem advance_flows (h : Flowing s) {j : Nat} {now : Int}
    (run : PipelineStages.step s (.advance node j now) = some t) : Flowing t := by
  obtain ⟨q, moved, rfl⟩ := Option.map_eq_some_iff.mp run
  obtain ⟨link, offers, handed, slot⟩ := (h.link node).advance moved
  exact h.setNode link offers handed fun busy => slot ▸ h.working node busy

theorem setStatus_flows (h : Flowing s) {status : TaskNodeStatus}
    (run : PipelineStages.step s (.setStatus node status) = some t) : Flowing t := by
  simp only [PipelineStages.step] at run
  obtain ⟨q, moved, rfl⟩ := Option.map_eq_some_iff.mp run
  have conserved := step_conserved (h.link node).conserved moved
  cases moved
  exact h.setNode ((h.link node).elsewhere conserved rfl rfl) rfl rfl (h.working node)

/-- A worker that is with a message goes on only when the handler has come back. -/
theorem work_inProcess {slot slot' : Slot} {act : WorkerAct} (busy : slot.worker = .inProcess)
    (run : slot.work false act = some slot') : act = .processReturn := by
  cases act <;> simp [Slot.work, busy] at run ⊢

theorem work_pop {slot slot' : Slot} (run : slot.work false (.pop true) = some slot') :
    slot'.worker = .inProcess := by
  simp only [Slot.work] at run
  split at run
  · cases run
    rfl
  · cases run

/-- The handler of a node has run and sends nothing to another node. -/
theorem Flowing.ended (h : Flowing s) (here : s.body node = .popped) (nodes : t.nodes = s.nodes)
    (vdec : t.vdec = s.vdec) (body : t.body = Function.update s.body node .finished)
    (decoded : t.decoded = s.decoded) (faults : t.faults = s.faults)
    (passed : Passed ((s.nodes node).handed.filterMap messageImage) (outcome t node)
      (t.discarded node))
    (others : ∀ m, m ≠ node → outcome t m = outcome s m ∧ t.discarded m = s.discarded m) :
    Flowing t := by
  have ended : t.body node = .finished := by rw [body, Function.update_self]
  have bodies : ∀ m, m ≠ node → t.body m = s.body m := by
    intro m ne
    rw [body, Function.update_of_ne ne]
  have waited : ∀ m, bodyCall (t.body m) = bodyCall (s.body m) := by
    intro m
    by_cases same : m = node
    · rw [same, ended, here]
      rfl
    · rw [bodies m same]
  have last : ∀ m, lastCall t m = lastCall s m := by
    intro m
    cases m with
    | preProcess => exact vdec
    | _ => exact waited _
  refine ⟨?_, ?_, ?_, ?_, faults.trans h.faultless⟩
  · intro m
    rw [last, nodes]
    exact h.link m
  · rw [nodes, decoded]
    exact h.source
  · intro m
    rw [nodes]
    by_cases same : m = node
    · subst same
      rw [treated, ended, if_neg (by simp)]
      exact passed
    · rw [bodies m same, (others m same).1, (others m same).2]
      exact h.passed m
  · intro m busy
    rw [nodes]
    by_cases same : m = node
    · subst same
      exact h.working m (by simp [here])
    · exact h.working m (bodies m same ▸ busy)

/-- The handler of a node has sent its frame to the next one, and waits. -/
theorem Flowing.forwarded (h : Flowing s) (here : s.body node = .popped) {next : Node}
    (isNext : node.next = some next) {call : Call (Payload I F)} {image : I}
    (frame : callImage call = some image) (typed : Typed next call.message)
    (fresh : call.stage = .checking ∨ call.stage = .returned kDestInvalid)
    (passed : Passed ((s.nodes node).handed.filterMap messageImage)
      (offered (s.nodes next) ++ [image]) (s.discarded node)) :
    Flowing ((s.setNode next ((s.nodes next).begin call)).setBody node
      (.sending (s.nodes next).calls.length)) := by
  have apart : node ≠ next := by
    rintro rfl
    cases node <;> cases isNext
  have former : ∀ m, m.next = some next → m = node := by
    intro m same
    cases m <;> cases node <;> cases isNext <;> first | rfl | cases same
  have offers : offered ((s.nodes next).begin call) = offered (s.nodes next) ++ [image] := by
    rw [offered, MessageQueues.State.begin, List.filterMap_append]
    simp [frame, offered]
  have idle : lastCall s next = none := by
    rw [lastCall_next isNext, here]
    rfl
  have link : Link next ((s.nodes next).begin call) (some (s.nodes next).calls.length) :=
    (idle ▸ h.link next).begin fresh typed (fun none => by rw [frame] at none; cases none)
      fun _ => ⟨rfl, rfl⟩
  refine ⟨?_, ?_, ?_, ?_, h.faultless⟩
  · intro m
    by_cases same : m = next
    · subst same
      rw [lastCall_next isNext, setBody_self, setBody_nodes, setNode_self]
      exact link
    · have last : lastCall ((s.setNode next ((s.nodes next).begin call)).setBody node
          (.sending (s.nodes next).calls.length)) m = lastCall s m := by
        cases m with
        | preProcess => rfl
        | _ =>
          refine congrArg bodyCall (setBody_other ?_)
          rintro rfl
          cases isNext
          exact same rfl
      rw [last, setBody_nodes, setNode_other same]
      exact h.link m
  · have first : Node.preProcess ≠ next := by
      rintro rfl
      cases node <;> cases isNext
    rw [setBody_nodes, setNode_other first]
    exact h.source
  · intro m
    have kept : outcome ((s.setNode next ((s.nodes next).begin call)).setBody node
        (.sending (s.nodes next).calls.length)) m =
          outcome (s.setNode next ((s.nodes next).begin call)) m := rfl
    rw [kept, setBody_nodes]
    by_cases same : m = node
    · subst same
      rw [setBody_self, setNode_other apart, treated, if_neg (by simp)]
      simp only [outcome, isNext, setNode_self, offers]
      exact passed
    · rw [setBody_other same, outcome_setNode fun next => same (former m next)]
      have treats : treated (s.body m) ((s.setNode next ((s.nodes next).begin call)).nodes m) =
          treated (s.body m) (s.nodes m) := by
        by_cases isNext : m = next
        · subst isNext
          rw [setNode_self]
          rfl
        · rw [setNode_other isNext]
      change Passed (treated (s.body m) _) _ _
      rw [treats]
      exact h.passed m
  · intro m busy
    have working : (s.nodes m).slot.worker = .inProcess := by
      by_cases same : m = node
      · subst same
        exact h.working m (by simp [here])
      · rw [setBody_other same] at busy
        exact h.working m busy
    rw [setBody_nodes]
    by_cases isNext : m = next
    · subst isNext
      rw [setNode_self]
      exact working
    · rw [setNode_other isNext]
      exact working

theorem handle_flows (h : Flowing s) {answers : Answers F} {pointer : Bool}
    (run : PipelineStages.step s (.handle node answers pointer) = some t) : Flowing t := by
  simp only [PipelineStages.step] at run
  split at run
  · rename_i here
    cases last : (s.nodes node).handed.getLast? with
    | none => simp only [PipelineStages.State.handle, last] at run; cases run
    | some message =>
      obtain ⟨front, handed⟩ := List.getLast?_eq_some_iff.mp last
      have mem : message ∈ (s.nodes node).handed := by
        rw [handed]
        exact List.mem_append_right _ (List.mem_singleton.mpr rfl)
      have passes : Passes node message.data.image
          (process answers message.msgId message.data node) :=
        process_passes ((h.link node).handed_typed mem)
      have passed := h.passed node
      have before : treated (s.body node) (s.nodes node) = front.filterMap messageImage := by
        rw [treated, if_pos here, handed, List.dropLast_concat]
      have all : (s.nodes node).handed.filterMap messageImage =
          front.filterMap messageImage ++ message.data.image.toList := by
        rw [handed, List.filterMap_append]
        cases image : message.data.image <;> simp [messageImage, image]
      rw [before] at passed
      cases effect : process answers message.msgId message.data node with
      | nothing =>
        simp only [PipelineStages.State.handle, last, effect] at run
        cases run
        refine h.ended here rfl rfl rfl rfl rfl ?_ ?_
        · dsimp only
          rw [all, Function.update_self]
          exact passed.lose message.data.image
        · intro m ne
          exact ⟨rfl, Function.update_of_ne ne ..⟩
      | write image =>
        simp only [PipelineStages.State.handle, last, effect] at run
        rw [effect] at passes
        obtain ⟨rfl, frame⟩ := passes
        cases run
        refine h.ended here rfl rfl rfl rfl rfl ?_ ?_
        · rw [all, frame]
          exact passed.keep image
        · intro m ne
          cases m with
          | encProcess => exact absurd rfl ne
          | _ => exact ⟨rfl, rfl⟩
      | fault =>
        rw [effect] at passes
        exact passes.elim
      | send msgId data =>
        rw [effect] at passes
        obtain ⟨next, isNext, rfl, fits, same⟩ := passes
        simp only [PipelineStages.State.handle, last, effect, isNext] at run
        obtain ⟨q, sent, rfl⟩ := Option.map_eq_some_iff.mp run
        obtain ⟨call, rfl, id, data', fresh⟩ := sendTo_begins sent
        obtain ⟨image, frame⟩ := Option.ne_none_iff_exists'.mp (image_of_fits fits)
        have carried : callImage call = some image := by rw [callImage, messageImage, data', frame]
        refine h.forwarded here isNext carried (Or.inl ⟨id, data' ▸ fits⟩) fresh ?_
        rw [all, ← same, frame]
        simp only [outcome, isNext] at passed
        exact passed.keep image
  · cases run

/-- The worker of a node takes a message or lets one go. -/
theorem Flowing.worked (h : Flowing s) {q : MessageQueues.State (Payload I F)} {body : Body}
    (link : Link node q (lastCall s node)) (offers : offered q = offered (s.nodes node))
    (treats : treated body q = treated (s.body node) (s.nodes node)) (idle : bodyCall body = none)
    (back : ∀ next, node.next = some next → ∀ j, bodyCall (s.body node) = some j →
      returned (s.nodes next) j = true)
    (working : body ≠ .waiting → q.slot.worker = .inProcess) :
    Flowing ((s.setNode node q).setBody node body) where
  link m := by
    by_cases isNext : node.next = some m
    · have apart : m ≠ node := by
        rintro rfl
        cases m <;> cases isNext
      have ended : ∀ j, lastCall s m = some j → returned (s.nodes m) j = true := by
        rw [lastCall_next isNext]
        exact back m isNext
      rw [lastCall_next isNext, setBody_self, idle, setBody_nodes, setNode_other apart]
      exact (h.link m).closed ended
    · have last : lastCall ((s.setNode node q).setBody node body) m = lastCall s m := by
        cases m with
        | preProcess => rfl
        | _ =>
          refine congrArg bodyCall (setBody_other ?_)
          rintro rfl
          exact isNext rfl
      rw [last, setBody_nodes]
      by_cases same : m = node
      · subst same
        rw [setNode_self]
        exact link
      · rw [setNode_other same]
        exact h.link m
  source := by
    rw [setBody_nodes]
    by_cases same : Node.preProcess = node
    · subst same
      rw [setNode_self, offers]
      exact h.source
    · rw [setNode_other same]
      exact h.source
  passed m := by
    have kept : outcome ((s.setNode node q).setBody node body) m = outcome s m := by
      change outcome (s.setNode node q) m = outcome s m
      by_cases isNode : m.next = some node
      · simp only [outcome, isNode, setNode_self, offers]
      · exact outcome_setNode isNode
    rw [kept, setBody_nodes]
    by_cases same : m = node
    · subst same
      rw [setBody_self, setNode_self, treats]
      exact h.passed m
    · rw [setBody_other same, setNode_other same]
      exact h.passed m
  working m busy := by
    rw [setBody_nodes]
    by_cases same : m = node
    · subst same
      rw [setNode_self]
      rw [setBody_self] at busy
      exact working busy
    · rw [setBody_other same] at busy
      rw [setNode_other same]
      exact h.working m busy
  faultless := h.faultless

/-- Only the return of the handler takes the worker from a message. -/
theorem Flowing.waiting_of_work (h : Flowing s) {act : WorkerAct} {slot : Slot}
    (run : (s.nodes node).slot.work false act = some slot) (other : act ≠ .processReturn) :
    s.body node = .waiting := by
  by_contra busy
  exact other (work_inProcess (h.working node busy) run)

theorem work_flows (h : Flowing s) {act : WorkerAct}
    (run : PipelineStages.step s (.worker node act) = some t) : Flowing t := by
  obtain ⟨q, moved, rest⟩ := Option.bind_eq_some_iff.mp run
  obtain ⟨link, offers, taken, slot⟩ := (h.link node).work moved
  have alone : act ≠ .pop true → act ≠ .processReturn → Flowing (s.setNode node q) := by
    intro unfound other
    have waiting := h.waiting_of_work slot other
    have handed : q.handed = (s.nodes node).handed := by
      rcases taken with ⟨found, -⟩ | ⟨-, handed⟩
      · exact absurd found unfound
      · exact handed
    exact h.setNode link offers handed fun busy => absurd waiting busy
  cases act with
  | pop found =>
    cases found with
    | false =>
      cases rest
      exact alone (by simp) (by simp)
    | true =>
      cases rest
      have waiting := h.waiting_of_work slot (by simp)
      obtain ⟨front, handed⟩ : ∃ front, q.handed = (s.nodes node).handed ++ [front] := by
        rcases taken with ⟨-, handed⟩ | ⟨unfound, -⟩
        · exact handed
        · exact absurd rfl unfound
      refine h.worked link offers ?_ rfl ?_ fun _ => work_pop slot
      · rw [waiting, treated, treated, if_pos rfl, if_neg (by simp), handed, List.dropLast_concat]
      · intro next isNext j last
        rw [waiting] at last
        cases last
  | processReturn =>
    dsimp only at rest
    split at rest
    · rename_i handled
      cases rest
      have handed : q.handed = (s.nodes node).handed := by
        rcases taken with ⟨found, -⟩ | ⟨-, handed⟩
        · cases found
        · exact handed
      have unpopped : s.body node ≠ .popped := by
        intro popped
        simp [PipelineStages.State.handled, popped] at handled
      refine h.worked link offers ?_ rfl ?_ fun busy => absurd rfl busy
      · rw [treated, treated, if_neg (by simp), if_neg unpopped, handed]
      · intro next isNext j last
        cases body : s.body node with
        | sending k =>
          rw [body] at last
          cases last
          simpa [PipelineStages.State.handled, body, isNext] using handled
        | _ => rw [body] at last; cases last
    · cases rest
  | start =>
    cases rest
    exact alone (by simp) (by simp)
  | initReturn ok =>
    cases rest
    exact alone (by simp) (by simp)
  | settle =>
    cases rest
    exact alone (by simp) (by simp)
  | check =>
    cases rest
    exact alone (by simp) (by simp)

theorem start_flows : Flowing (pipeline : Machine (PipelineStages.State I F) _).start where
  link node :=
    { conserved := start_conserved node.name node.instanceId
      typed := fun call mem => absurd mem List.not_mem_nil
      settled := by intro j call here; cases here
      latest := by intro i last j call after here; cases here
      entered_eq := rfl }
  source := rfl
  passed node := by
    cases node <;> exact ⟨List.Sublist.slnil, rfl⟩
  working node busy := absurd rfl busy
  faultless := rfl

theorem step_flows (h : Flowing s) {label : PipelineStages.Label I F}
    (run : PipelineStages.step s label = some t) : Flowing t := by
  cases label with
  | decode image pointer => exact decode_flows h run
  | control node exit pointer => exact control_flows h run
  | handle node answers pointer => exact handle_flows h run
  | advance node j now => exact advance_flows h run
  | worker node act => exact work_flows h run
  | setStatus node status => exact setStatus_flows h run

end Steps

section Accounts

/-- A frame that the queue did not take. -/
def refuses (call : Call (Payload I F)) : Bool :=
  match call.stage with
  | .returned error => decide (error ≠ kOk) && (callImage call).isSome
  | _ => false

/-- A frame whose `SendMessage` has not come back. -/
def pends (call : Call (Payload I F)) : Bool :=
  match call.stage with
  | .returned _ => false
  | _ => (callImage call).isSome

def underway (q : MessageQueues.State (Payload I F)) : Nat := q.calls.countP pends

def queued (q : MessageQueues.State (Payload I F)) : Nat :=
  (q.msgQueue.queue.filterMap messageImage).length

/-- The message that is popped and not handled. -/
def inHand (body : Body) (q : MessageQueues.State (Payload I F)) :
    Option (TaskMessage (Payload I F)) :=
  if body = .popped then q.handed.getLast? else none

/-- The frames a node lets fall: its queue is full or closed to them, or its handler
makes nothing of them. -/
def lost (s : State I F) (node : Node) : Nat :=
  (s.nodes node).calls.countP refuses + (s.discarded node).length

/-- The frames on their way into the queue of a node, in it, and with its handler. -/
def held (s : State I F) (node : Node) : Nat :=
  underway (s.nodes node) + queued (s.nodes node) +
    ((inHand (s.body node) (s.nodes node)).bind messageImage).toList.length

variable {s : State I F} {node : Node} {q : MessageQueues.State (Payload I F)} {last : Option Nat}

theorem Link.offered_length (h : Link node q last) :
    (offered q).length = (entered q).length + q.calls.countP refuses + underway q := by
  rw [h.entered_eq, offered, underway]
  have every : ∀ calls : List (Call (Payload I F)), (calls.filterMap callImage).length =
      (calls.filterMap enteredImage).length + calls.countP refuses + calls.countP pends := by
    intro calls
    induction calls with
    | nil => rfl
    | cons call rest ih =>
      rw [List.filterMap_cons, List.filterMap_cons, List.countP_cons, List.countP_cons]
      cases image : callImage call with
      | none => cases stage : call.stage <;> simp [enteredImage, refuses, pends, stage, image, ih]
      | some frame =>
        cases stage : call.stage with
        | returned error =>
          by_cases ok : error = kOk
          · simp [enteredImage, refuses, pends, stage, image, ih, ok]
            omega
          · simp [enteredImage, refuses, pends, stage, image, ih, ok]
            omega
        | _ =>
          simp [enteredImage, refuses, pends, stage, image, ih]
          omega
  exact every q.calls

theorem Link.entered_length (h : Link node q last) :
    (entered q).length = (popped q).length + queued q := by
  rw [entered, popped, queued, ← h.conserved.flow, List.filterMap_append, List.length_append]

theorem popped_length (body : Body) (q : MessageQueues.State (Payload I F)) :
    (popped q).length =
      (treated body q).length + ((inHand body q).bind messageImage).toList.length := by
  rw [popped, treated, inHand]
  split_ifs
  · cases latest : q.handed.getLast? with
    | none => simp [List.getLast?_eq_none_iff.mp latest]
    | some message =>
      obtain ⟨front, handed⟩ := List.getLast?_eq_some_iff.mp latest
      rw [handed, List.dropLast_concat, List.filterMap_append, List.length_append]
      cases image : messageImage message <;> simp [image]
  · simp

theorem treated_sublist (body : Body) (q : MessageQueues.State (Payload I F)) :
    (treated body q).Sublist (popped q) := by
  rw [treated, popped]
  split_ifs
  · exact (List.dropLast_sublist _).filterMap _
  · exact List.Sublist.refl _

/-- What a node was given is lost, held or passed on. -/
theorem Flowing.node_accounted (h : Flowing s) (node : Node) :
    (offered (s.nodes node)).length =
      (outcome s node).length + lost s node + held s node := by
  have offers := (h.link node).offered_length
  have enters := (h.link node).entered_length
  have pops := popped_length (s.body node) (s.nodes node)
  have passes := (h.passed node).2
  unfold lost held
  omega

/-- A queue and two frames: one of the sender and one of the handler. -/
theorem Flowing.held_le (h : Flowing s) (node : Node) : held s node ≤ kMsgQueueSize + 2 := by
  have sender : underway (s.nodes node) ≤ 1 := by
    refine countP_le_one (j := (lastCall s node).getD 0) fun i call here pending => ?_
    have unreturned : ∀ error, call.stage ≠ .returned error := by
      intro error stage
      rw [pends, stage] at pending
      cases pending
    have frame : callImage call ≠ none := by
      intro none
      rw [pends, none] at pending
      cases stage : call.stage <;> rw [stage] at pending <;> cases pending
    by_cases latest : lastCall s node = some i
    · rw [latest, Option.getD_some]
    · obtain ⟨error, stage⟩ := (h.link node).settled i call here frame latest
      exact absurd stage (unreturned error)
  have inside : queued (s.nodes node) ≤ kMsgQueueSize := by
    rw [← (h.link node).conserved.capacity]
    exact (List.length_filterMap_le _ _).trans (s.nodes node).msgQueue.bounded
  have handler : ((inHand (s.body node) (s.nodes node)).bind messageImage).toList.length ≤ 1 :=
    Option.length_toList_le
  unfold held
  omega

theorem Flowing.popped_offered (h : Flowing s) (node : Node) :
    (popped (s.nodes node)).Sublist (offered (s.nodes node)) :=
  (h.link node).popped_front.sublist.trans (h.link node).entered_sublist

theorem Flowing.outcome_popped (h : Flowing s) (node : Node) :
    (outcome s node).Sublist (popped (s.nodes node)) :=
  (h.passed node).1.trans (treated_sublist _ _)

theorem run_flows (run : Reachable pipeline s) : Flowing s :=
  run.invariant start_flows fun _ _ _ h moved => step_flows h moved

end Accounts

/-- The frames a node has popped are, in their order, frames that the node before it has
popped; the first gets its frames as they are decoded, and the encoder as the last has
popped them. No handler takes its data for something else. -/
theorem frames_in_order {s : State I F} (run : Reachable pipeline s) :
    (popped (s.nodes .preProcess)).Sublist s.decoded ∧
      (∀ node next, node.next = some next →
        (popped (s.nodes next)).Sublist (popped (s.nodes node))) ∧
      s.written.Sublist (popped (s.nodes .encProcess)) ∧ s.faults = 0 := by
  have flows := run_flows run
  refine ⟨?_, ?_, flows.outcome_popped .encProcess, flows.faultless⟩
  · rw [← flows.source]
    exact flows.popped_offered .preProcess
  · intro node next isNext
    have passed := flows.outcome_popped node
    simp only [outcome, isNext] at passed
    exact (flows.popped_offered next).trans passed

/-- Two frames come in. The first gets to `InfProcess`; for the second the platform
fails. -/
def secondFails : List (PipelineStages.Label Nat Nat) :=
  let launch (node : Node) : List (PipelineStages.Label Nat Nat) :=
    [.worker node .start, .worker node (.initReturn true), .worker node .settle]
  let answers (ivps : Int) : Answers Nat := ⟨ivps, 0, [], true, 0, 0, []⟩
  launch .preProcess ++ launch .infProcess ++
    [.decode 1 true, .advance .preProcess 0 0, .advance .preProcess 0 0, .decode 2 true,
      .worker .preProcess .check, .worker .preProcess (.pop true), .advance .preProcess 1 0,
      .advance .preProcess 1 0, .handle .preProcess (answers 0) true, .advance .infProcess 0 0,
      .advance .infProcess 0 0, .worker .preProcess .processReturn, .worker .preProcess .check,
      .worker .preProcess (.pop true), .handle .preProcess (answers (-1)) true,
      .worker .infProcess .check, .worker .infProcess (.pop true)]

theorem secondFails_in_order :
    ∃ s : State Nat Nat, pipeline.exec pipeline.start secondFails = some s ∧ s.decoded = [1, 2] ∧
      popped (s.nodes .infProcess) = [1] ∧ s.written.Sublist [] := by
  obtain ⟨s, run, decoded, inf, enc⟩ : ∃ s : State Nat Nat,
      pipeline.exec pipeline.start secondFails = some s ∧ s.decoded = [1, 2] ∧
        popped (s.nodes .infProcess) = [1] ∧ popped (s.nodes .encProcess) = [] :=
    ⟨_, rfl, rfl, rfl, rfl⟩
  obtain ⟨-, -, written, -⟩ := frames_in_order (Machine.exec_reachable run)
  exact ⟨s, run, decoded, inf, enc ▸ written⟩

/-- A frame that was decoded is written, with one of the nodes, or lost at one of them,
and no node has more than its queue holds and two. When nothing is lost and nothing on its
way, all frames are written as they were decoded. -/
theorem frames_accounted {s : State I F} (run : Reachable pipeline s) :
    s.decoded.length =
        s.written.length + (threadTbl.map (lost s)).sum + (threadTbl.map (held s)).sum ∧
      (∀ node, held s node ≤ kMsgQueueSize + 2) ∧
      ((∀ node, lost s node = 0 ∧ held s node = 0) → s.written = s.decoded) := by
  have flows := run_flows run
  have account : s.decoded.length =
      s.written.length + (threadTbl.map (lost s)).sum + (threadTbl.map (held s)).sum := by
    have first := flows.node_accounted .preProcess
    have second := flows.node_accounted .infProcess
    have third := flows.node_accounted .busProcess
    have fourth := flows.node_accounted .encProcess
    rw [flows.source] at first
    simp only [outcome, Node.next] at first second third fourth
    simp only [threadTbl, List.map_cons, List.map_nil, List.sum_cons, List.sum_nil]
    omega
  refine ⟨account, flows.held_le, ?_⟩
  intro none
  obtain ⟨pre, between, written, -⟩ := frames_in_order run
  have order : s.written.Sublist s.decoded :=
    written.trans ((between .busProcess .encProcess rfl).trans
      ((between .infProcess .busProcess rfl).trans
        ((between .preProcess .infProcess rfl).trans pre)))
  refine order.eq_of_length ?_
  simp only [threadTbl, List.map_cons, List.map_nil, List.sum_cons, List.sum_nil,
    (none _).1, (none _).2] at account
  omega

theorem secondFails_accounted :
    ∃ s : State Nat Nat, pipeline.exec pipeline.start secondFails = some s ∧
      lost s .preProcess = 1 ∧ held s .infProcess = 1 ∧
      2 = (threadTbl.map (lost s)).sum + (threadTbl.map (held s)).sum := by
  obtain ⟨s, run, decoded, written, lost, held⟩ : ∃ s : State Nat Nat,
      pipeline.exec pipeline.start secondFails = some s ∧ s.decoded = [1, 2] ∧ s.written = [] ∧
        lost s .preProcess = 1 ∧ held s .infProcess = 1 := ⟨_, rfl, rfl, rfl, rfl, rfl⟩
  obtain ⟨account, -, -⟩ := frames_accounted (Machine.exec_reachable run)
  rw [decoded, written] at account
  exact ⟨s, run, lost, held, by simpa using account⟩

end Pipeline

end PipelineFrames
