import CsmProxy.Instances.InstanceMap
import Mathlib.Data.List.Infix

/-!
# Until-conditions of `observe`

The pure part of `McpServer::observe_wait_json`: the four until-conditions over the
drained events and the latest heartbeat. An event is the envelope itself; its JSON
rendering keeps the text of a log line under `log.text`, which is all the conditions
read.
-/

namespace CsmProxy

/-- `str::contains` with a string pattern. -/
def strContains (text needle : List Char) : Bool := decide (needle <:+: text)

/-- The text after the first occurrence of `tag`. -/
def afterTag (tag : List Char) : List Char → Option (List Char)
  | [] => if tag <+: [] then some [] else none
  | c :: cs => if tag <+: c :: cs then some ((c :: cs).drop tag.length) else afterTag tag cs

/-- The text before the first occurrence of `tag`, or all of it. -/
def beforeTag (tag : List Char) : List Char → List Char
  | [] => []
  | c :: cs => if tag <+: c :: cs then [] else c :: beforeTag tag cs

/-- `text.split(tag).nth(1)` -/
def secondPiece (tag text : List Char) : Option (List Char) := (afterTag tag text).map (beforeTag tag)

/-- The value of a string of decimal digits. -/
def decimalValue (digits : List Char) : Nat :=
  digits.foldl (fun acc c => acc * 10 + (c.toNat - '0'.toNat)) 0

/-- `str::parse::<i32>`, for text without a plus sign. -/
def parseI32 (text : List Char) : Option Int32 :=
  let (negative, digits) := match text with
    | '-' :: rest => (true, rest)
    | text => (false, text)
  if digits = [] ∨ ¬ digits.all Char.isDigit then none
  else
    let value : Int := if negative then -(decimalValue digits : Int) else decimalValue digits
    if -2147483648 ≤ value ∧ value ≤ 2147483647 then some (Int32.ofInt value) else none

/-- `tagged_i32` -/
def taggedI32 (text tag : List Char) : Option Int32 :=
  (secondPiece tag text).bind fun rest =>
    parseI32 (rest.takeWhile fun c => c.isDigit || c = '-')

/-- `log_text` -/
def logText (event : SimToServer) : List Char :=
  match event.payload with
  | some (.log log) => log.text.toList
  | _ => []

/-- `HeartbeatUi` -/
structure HeartbeatUi where
  generation : Option UInt64 := none
  activity : String := ""
  readerSpine : Int32 := 0
  readerPage : Int32 := 0
deriving DecidableEq, Repr

/-- `McpServer::heartbeat_ui` -/
def heartbeatUi (m : InstanceMap) (id : String) : HeartbeatUi :=
  match (m.get id).bind InstanceSnapshot.lastHeartbeat with
  | some hb => ⟨some hb.framebufferGeneration, hb.activity, hb.readerSpine, hb.readerPage⟩
  | none => {}

/-- `ObserveSpec` -/
structure ObserveSpec where
  waitMs : Option UInt32 := none
  untilLog : Option String := none
  untilGenerationGt : Option UInt64 := none
  untilActivity : Option String := none
  untilProgressPage : Option Int32 := none
deriving DecidableEq, Repr

namespace ObserveSpec

/-- An empty text is no condition. -/
def effectiveLog (spec : ObserveSpec) : Option String := spec.untilLog.filter fun text => !text.isEmpty

/-- An empty activity name is no condition. -/
def effectiveActivity (spec : ObserveSpec) : Option String :=
  spec.untilActivity.filter fun text => !text.isEmpty

/-- `waiting` -/
def waiting (spec : ObserveSpec) : Bool :=
  spec.effectiveLog.isSome || spec.untilGenerationGt.isSome || spec.effectiveActivity.isSome ||
    spec.untilProgressPage.isSome

/-- `timeout_ms`, given the process default. -/
def timeoutMs (spec : ObserveSpec) (default : UInt32) : UInt32 :=
  match spec.waitMs with
  | some ms => ms
  | none => if spec.waiting then default else 0

end ObserveSpec

/-- `observe_until_matched` -/
def observeUntilMatched (untilLog : Option String) (untilGenerationGt : Option UInt64)
    (untilActivity : Option String) (untilProgressPage : Option Int32)
    (events : List SimToServer) (generation : Option UInt64) (activity : String)
    (readerPage : Int32) : Bool :=
  let logHit := untilLog.any fun needle =>
    events.any fun event => strContains (logText event) needle.toList
  let generationHit := untilGenerationGt.any fun least =>
    generation.any fun value => value > least
  let activityHit := untilActivity.any fun name =>
    activity = name ||
      events.any fun event => strContains (logText event) ("Entering activity: " ++ name).toList
  let pageHit := untilProgressPage.any fun page =>
    readerPage = page ||
      events.any fun event => strContains (logText event) "Progress saved:".toList &&
        taggedI32 (logText event) "page=".toList = some page
  let anySet := untilLog.isSome || untilGenerationGt.isSome || untilActivity.isSome ||
    untilProgressPage.isSome
  !anySet || (logHit || generationHit || activityHit || pageHit)

/-- `wire_session_view_paths` -/
def wireSessionViewPaths (paths : List String) : List String :=
  if paths.isEmpty || paths.any fun path => path = "heartbeat" then paths
  else paths ++ ["heartbeat"]

end CsmProxy
