import CsmProxy.Runtime.Host

/-!
# The session task

`SessionService::session` of `session.rs`: the handler of one stream up to the
registration, then the read loop it spawns. `Session.step` executes one critical
section; between two of them any other task may run.
-/

namespace CsmProxy

/-- Who opened the stream: a process that `start` spawned, or somebody else. -/
inductive Dialler where
  | external
  | child (process : Nat)
deriving DecidableEq, Repr

/-- Where the handler of a stream is. -/
inductive SessionPc where
  /-- Before the first message. -/
  | first
  /-- The handler returned an error. -/
  | refused (message : String)
  /-- `insert`, the token. -/
  | allocToken
  /-- `insert`, the map. -/
  | insert
  /-- `requests.next()` of the read loop. -/
  | next
  /-- The `owns` check of the read loop. -/
  | owns (item : StreamItem)
  /-- `set_heartbeat`. -/
  | heartbeat (heartbeat : Heartbeat) (msg : SimToServer)
  /-- Inside `push_inbound`. -/
  | push (msg : SimToServer) (pc : PushPc)
  /-- Inside the `remove_if` of the goodbye branch. -/
  | removeGoodbye (pc : RemovePc)
  /-- After the loop: the `owns` check that only decides what is logged. -/
  | leaving
  /-- Inside the last `remove_if`. -/
  | remove (pc : RemovePc)
  /-- The read loop has ended. -/
  | ended
deriving DecidableEq

/-- One stream. `register` and `token` are meaningful from the `insert` on.
`received` is a history: the messages read after the `Register`, in order. -/
structure Session where
  dialler : Dialler
  register : Register := {}
  token : Nat := 0
  received : List SimToServer := []
  pc : SessionPc := .first
deriving DecidableEq

namespace Session

/-- The first message decides whether the stream is accepted. -/
def accept (s : Session) : StreamItem → Session
  | .message msg =>
    match msg.payload with
    | some (.register register) =>
      if isValidInstanceId register.instanceId then
        { s with register := register, pc := .allocToken }
      else { s with pc := .refused "instance_id must be 1-64 bytes" }
    | _ => { s with pc := .refused "first session message must be Register" }
  | .error err => { s with pc := .refused err }
  | .closed => { s with pc := .refused "session opened with no messages" }

/-- The branches of the loop body after the `owns` check passed. -/
def dispatch : StreamItem → SessionPc
  | .message msg =>
    match msg.payload with
    | some (.heartbeat heartbeat) => .heartbeat heartbeat msg
    | _ => .push msg .complete
  | .error _ => .leaving
  | .closed => .leaving

/-- After `push_inbound`: the goodbye branch removes the entry, the others go on. -/
def afterPush (msg : SimToServer) : SessionPc :=
  match msg.payload with
  | some (.goodbye _) => .removeGoodbye .entry
  | _ => .next

/-- A child can dial only once it has been spawned. -/
def canDial (s : Session) (h : Host) : Bool :=
  match s.dialler with
  | .external => true
  | .child process => (h.process.lookup process).isSome

/-- One critical section of the stream's handler. -/
def step (h : Host) (s : Session) (choice : Choice) : Option (Host × Session) :=
  match s.pc, choice with
  | .first, .item item => if s.canDial h then some (h, s.accept item) else none
  | .allocToken, .run =>
    let (token, instances) := h.instances.allocToken
    some ({ h with instances := instances }, { s with token := token, pc := .insert })
  | .insert, .run =>
    let instances :=
      h.instances.insertInstance s.token s.register queueCapacity (.new queueCapacity)
    some ({ h with instances := instances }, { s with pc := .next })
  | .next, .item .closed => some (h, { s with pc := .leaving })
  | .next, .item (.error err) => some (h, { s with pc := .owns (.error err) })
  | .next, .item (.message msg) =>
    some (h, { s with received := s.received ++ [msg], pc := .owns (.message msg) })
  | .owns item, .run =>
    let owned := h.instances.owns s.register.instanceId s.token
    some (h, { s with pc := if owned then dispatch item else .leaving })
  | .heartbeat heartbeat msg, .run =>
    some ({ h with instances := h.instances.setHeartbeat s.register.instanceId s.token heartbeat },
      { s with pc := .push msg .complete })
  | .push msg pc, .run =>
    let (h, pc) := pc.step s.register.instanceId msg h
    some (h, { s with pc := pc.elim (afterPush msg) (.push msg) })
  | .removeGoodbye pc, choice =>
    (pc.step s.register.instanceId s.token h choice).map fun (h, pc) =>
      (h, { s with pc := pc.elim .leaving .removeGoodbye })
  | .leaving, .run => some (h, { s with pc := .remove .entry })
  | .remove pc, choice =>
    (pc.step s.register.instanceId s.token h choice).map fun (h, pc) =>
      (h, { s with pc := pc.elim .ended .remove })
  | _, _ => none

/-- The stream has been given its token. -/
def HasToken (s : Session) : Prop :=
  match s.pc with
  | .first | .refused _ | .allocToken => False
  | _ => True

/-- The stream has been entered in the map. -/
def Entered (s : Session) : Prop :=
  match s.pc with
  | .first | .refused _ | .allocToken | .insert => False
  | _ => True

end Session

end CsmProxy
