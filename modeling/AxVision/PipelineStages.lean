import AxVision.DetectionTypes
import AxVision.MessageQueues
import Mathlib.Logic.Function.Basic

/-!
# The stages of the pipeline

`main` starts four nodes. The thread of the video decoder sends every frame to
the first; each node handles the messages of its queue and sends what comes of a
frame to the next; the last one writes it to the encoder. The queues are those of
the node managers, and a `SendMessage` is as many steps as it is there. A handler
runs up to its `SendMessage` in one step and then waits for it.
-/

namespace PipelineStages

open TransitionRuns SchedulerRuns MessageQueues DetectionTypes

universe u v

variable {I : Type u} {F : Type v}

def kMsgAppStart : Int := 1

def kMsgVdecData : Int := 2

def kMsgPreprocData : Int := 3

def kMsgInfprocData : Int := 4

def kMsgBusprocData : Int := 5

def kMsgAppExit : Int := 10

/-- The nodes in the order of `thread_tbl`. -/
inductive Node where
  | preProcess
  | infProcess
  | busProcess
  | encProcess
  deriving DecidableEq, Repr

def threadTbl : List Node := [.preProcess, .infProcess, .busProcess, .encProcess]

/-- `node_name` -/
def Node.name : Node → String
  | .preProcess => "PreProcess"
  | .infProcess => "InfProcess"
  | .busProcess => "BusProcess"
  | .encProcess => "EncProcess"

/-- `InstanceId`; entry 0 of `thread_list_` belongs to the main thread. -/
def Node.instanceId : Node → Nat
  | .preProcess => 1
  | .infProcess => 2
  | .busProcess => 3
  | .encProcess => 4

/-- `next_thread_id_` -/
def Node.next : Node → Option Node
  | .preProcess => some .infProcess
  | .infProcess => some .busProcess
  | .busProcess => some .encProcess
  | .encProcess => none

/-- What `msg_data` points to. -/
inductive Payload (I : Type u) (F : Type v) where
  | null
  | imageData (image : I)
  | preData (image : I) (data : List UInt8)
  | infData (image : I) (objects : List (Object F))
  | busData (image : I)

def Payload.image : Payload I F → Option I
  | .null => none
  | .imageData image => some image
  | .preData image _ => some image
  | .infData image _ => some image
  | .busData image => some image

/-- What a handler gets from the platform and from the engine. -/
structure Answers (F : Type v) where
  ivps : Int
  copy2Host : Int
  data : List UInt8
  engineReady : Bool
  infer : Int
  postprocess : Int
  objects : List (Object F)

/-- What a handler does. A fault is a read through a null pointer or through a
pointer to an object of another type. -/
inductive Effect (I : Type u) (F : Type v) where
  | nothing
  | send (msgId : Int) (data : Payload I F)
  | write (image : I)
  | fault

section Handlers

variable (answers : Answers F) (msgId : Int) (data : Payload I F)

/-- `PreProcess::Process` -/
def preProcess : Effect I F :=
  if msgId = kMsgVdecData then
    match data with
    | .imageData image =>
      if answers.ivps ≠ 0 then .nothing
      else if answers.copy2Host ≠ 0 then .nothing
      else .send kMsgPreprocData (.preData image answers.data)
    | _ => .fault
  else .nothing

/-- `InfProcess::Process` -/
def infProcess : Effect I F :=
  if msgId = kMsgPreprocData then
    if !answers.engineReady then .nothing
    else
      match data with
      | .preData image _ =>
        if answers.infer ≠ 0 then .nothing
        else if answers.postprocess ≠ 0 then .nothing
        else .send kMsgInfprocData (.infData image answers.objects)
      | _ => .fault
  else .nothing

/-- `BusProcess::Process`; a frame is forwarded whatever the scene makes of it. -/
def busProcess : Effect I F :=
  if msgId = kMsgInfprocData then
    match data with
    | .null => .nothing
    | .infData image _ => .send kMsgBusprocData (.busData image)
    | _ => .fault
  else .nothing

/-- `EncProcess::Process` -/
def encProcess : Effect I F :=
  if msgId = kMsgBusprocData then
    match data with
    | .busData image => .write image
    | _ => .fault
  else .nothing

def process : Node → Effect I F
  | .preProcess => preProcess answers msgId data
  | .infProcess => infProcess answers msgId data
  | .busProcess => busProcess msgId data
  | .encProcess => encProcess msgId data

end Handlers

/-- Where the worker of a node stands with the message it has popped last;
`sending j` waits for call `j` of the next node's queue. -/
inductive Body where
  | waiting
  | popped
  | sending (j : Nat)
  | finished
  deriving DecidableEq, Repr

/-- `vdec` is the last call of the decoder's thread. The frames it has sent, those
written to the encoder and those a node did nothing with are recorded. -/
structure State (I : Type u) (F : Type v) where
  nodes : Node → MessageQueues.State (Payload I F)
  vdec : Option Nat := none
  body : Node → Body := fun _ => .waiting
  decoded : List I := []
  written : List I := []
  discarded : Node → List I := fun _ => []
  faults : Nat := 0

inductive Label (I : Type u) (F : Type v) where
  /-- `VdecProcessCallbackFunc` -/
  | decode (image : I) (pointer : Bool)
  /-- the main thread sends `kMsgAppStart` or `kMsgAppExit` -/
  | control (node : Node) (exit pointer : Bool)
  | handle (node : Node) (answers : Answers F) (pointer : Bool)
  | advance (node : Node) (j : Nat) (now : Int)
  | worker (node : Node) (act : WorkerAct)
  | setStatus (node : Node) (status : TaskNodeStatus)

/-- `SendMessage` to a node; `pointer` tells whether its manager is still there. -/
def sendTo (node : Node) (q : MessageQueues.State (Payload I F)) (pointer : Bool) (msgId : Int)
    (data : Payload I F) : Option (MessageQueues.State (Payload I F)) :=
  MessageQueues.step node.instanceId q (.sendMessage node.instanceId 5 pointer msgId data)

def returned (q : MessageQueues.State (Payload I F)) (j : Nat) : Bool :=
  match q.calls[j]? with
  | some call =>
    match call.stage with
    | .returned _ => true
    | _ => false
  | none => true

namespace State

def setNode (s : State I F) (node : Node) (q : MessageQueues.State (Payload I F)) : State I F :=
  { s with nodes := Function.update s.nodes node q }

def setBody (s : State I F) (node : Node) (body : Body) : State I F :=
  { s with body := Function.update s.body node body }

/-- The handler of a node runs for the message that was popped last. -/
def handle (s : State I F) (node : Node) (answers : Answers F) (pointer : Bool) :
    Option (State I F) :=
  match (s.nodes node).handed.getLast? with
  | none => none
  | some message =>
    match process answers message.msgId message.data node with
    | .nothing =>
      some
        { s.setBody node .finished with
          discarded := Function.update s.discarded node
            (s.discarded node ++ message.data.image.toList) }
    | .write image => some { s.setBody node .finished with written := s.written ++ [image] }
    | .fault => some { s.setBody node .finished with faults := s.faults + 1 }
    | .send msgId data =>
      match node.next with
      | none => none
      | some next =>
        (sendTo next (s.nodes next) pointer msgId data).map fun q =>
          (s.setNode next q).setBody node (.sending (s.nodes next).calls.length)

/-- The handler has come back, and so has its `SendMessage`. -/
def handled (s : State I F) (node : Node) : Bool :=
  match s.body node, node.next with
  | .finished, _ => true
  | .sending j, some next => returned (s.nodes next) j
  | _, _ => false

def work (s : State I F) (node : Node) (act : WorkerAct) : Option (State I F) :=
  ((s.nodes node).work act).bind fun q =>
    match act with
    | .pop true => some ((s.setNode node q).setBody node .popped)
    | .processReturn =>
      if s.handled node then some ((s.setNode node q).setBody node .waiting) else none
    | _ => some (s.setNode node q)

end State

def step (s : State I F) : Label I F → Option (State I F)
  | .decode image pointer =>
    if s.vdec.all fun j => returned (s.nodes .preProcess) j then
      (sendTo .preProcess (s.nodes .preProcess) pointer kMsgVdecData (.imageData image)).map
        fun q =>
          { s.setNode .preProcess q with
            vdec := some (s.nodes .preProcess).calls.length
            decoded := s.decoded ++ [image] }
    else none
  | .control node exit pointer =>
    (sendTo node (s.nodes node) pointer (if exit then kMsgAppExit else kMsgAppStart) .null).map
      fun q => s.setNode node q
  | .handle node answers pointer =>
    if s.body node = .popped then s.handle node answers pointer else none
  | .advance node j now =>
    (MessageQueues.step node.instanceId (s.nodes node) (.advance j now)).map fun q =>
      s.setNode node q
  | .worker node act => s.work node act
  | .setStatus node status =>
    (MessageQueues.step node.instanceId (s.nodes node) (.setStatus status)).map fun q =>
      s.setNode node q

/-- The pipeline behind `Start`, with the threads of the nodes created. -/
def pipeline : Machine (State I F) (Label I F) where
  start := { nodes := fun node => (taskNodeMgr node.name node.instanceId).start }
  step := step

end PipelineStages
