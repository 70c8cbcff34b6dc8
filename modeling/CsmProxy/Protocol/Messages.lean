/-!
# Session messages

The messages of `simulator_control.proto` and `session.proto`, with all their
fields. A oneof is an `Option` of an inductive type, because an envelope may carry
no payload. `f32` coordinates are kept as their bit patterns, and bytes as lists;
nothing in the proxy computes with either.
-/

namespace CsmProxy

/-- Identity and device profile sent once when the stream opens. -/
structure Register where
  instanceId : String := ""
  boardId : String := ""
  controller : String := ""
  width : UInt32 := 0
  height : UInt32 := 0
  capTouch : Bool := false
  capHome : Bool := false
  capFrontlight : Bool := false
  pid : UInt32 := 0
  version : String := ""
deriving DecidableEq, Repr

/-- Periodic liveness from the simulator client. -/
structure Heartbeat where
  framebufferGeneration : UInt64 := 0
  injectEnabled : Bool := false
  headless : Bool := false
  activity : String := ""
  readerSpine : Int32 := 0
  readerPage : Int32 := 0
  orientation : UInt32 := 0
deriving DecidableEq, Repr

structure SnapshotFrame where
  pixels : List UInt8 := []
  mimeType : String := ""
  hash : String := ""
  generation : UInt64 := 0
  width : UInt32 := 0
  height : UInt32 := 0
deriving DecidableEq, Repr

structure SnapshotError where
  message : String := ""
deriving DecidableEq, Repr

inductive LogType where
  | unspecified
  | firmwareSerial
  | hostSim
  | controlPlane
deriving DecidableEq, Repr

inductive LogSeverity where
  | unspecified
  | debug
  | info
  | warn
  | error
deriving DecidableEq, Repr

/-- One classifiable log line. -/
structure LogLine where
  seq : UInt64 := 0
  type : LogType := .unspecified
  severity : LogSeverity := .unspecified
  component : String := ""
  text : String := ""
deriving DecidableEq, Repr

/-- Reply to a server item that set `ack_requested`. -/
structure InputAck where
  accepted : Bool := false
  reason : String := ""
deriving DecidableEq, Repr

inductive InputSource where
  | unspecified
  | human
  | remote
  | script
deriving DecidableEq, Repr

inductive InputEvent where
  | key (name : String) (down : Bool)
  | touch (kind nx ny : UInt32)
  | home (down : Bool)
  | host (kind : UInt32)
deriving DecidableEq, Repr

/-- Applied user-interaction edge. -/
structure InputObserved where
  source : InputSource := .unspecified
  event : Option InputEvent := none
deriving DecidableEq, Repr

structure Goodbye where
  reason : String := ""
deriving DecidableEq, Repr

/-- Inject paint outcome. -/
structure UiResult where
  painted : Bool := false
  generation : UInt64 := 0
  activity : String := ""
deriving DecidableEq, Repr

/-- `SimToServer.payload`. -/
inductive SimPayload where
  | register (register : Register)
  | heartbeat (heartbeat : Heartbeat)
  | snapshot (frame : SnapshotFrame)
  | snapshotError (error : SnapshotError)
  | log (log : LogLine)
  | inputAck (ack : InputAck)
  | inputObserved (observed : InputObserved)
  | goodbye (goodbye : Goodbye)
  | uiResult (result : UiResult)
deriving DecidableEq, Repr

/-- Client-to-server envelope. -/
structure SimToServer where
  seq : UInt64 := 0
  corr : UInt64 := 0
  payload : Option SimPayload := none
deriving DecidableEq, Repr

inductive CoordinateSpace where
  | unspecified
  | panel
  | logical
deriving DecidableEq, Repr

/-- `ServerToSim.payload`. -/
inductive ServerPayload where
  | injectTouch (kind x y : UInt32) (space : CoordinateSpace)
  | injectKey (name : String) (holdMs : UInt32)
  | injectHome (holdMs : UInt32)
  | injectSwipe (startX startY endX endY durationMs : UInt32) (space : CoordinateSpace)
  | snapshotRequest (region : Bool) (x y width height format : UInt32)
  | setInjectEnabled (enabled : Bool)
  | shutdown
  | setSessionView (readMask excludeLogComponents : List String)
deriving DecidableEq, Repr

/-- Server-to-client envelope. -/
structure ServerToSim where
  corr : UInt64 := 0
  ackRequested : Bool := false
  payload : Option ServerPayload := none
deriving DecidableEq, Repr

end CsmProxy
