import KeepPeek.Lib.TreeMap
import KeepPeek.Storage.Budget

/-! Bounded pre-record history: for every stream the most recent groups of
pictures, within byte, frame and duration limits. Streams are registered under
their source and stream name; frames that leave a continuous history are released
to the recorder, the others are dropped with their reservation. -/
namespace KeepPeek.Storage

open Lib Std

def maxStreams : Nat := 254

def maxIdBytes : Nat := 256

def second : Nat := 1000000000

structure Gop where
  start : Nat
  frames : List BufferedFrame
  deriving DecidableEq, Repr

inductive HistoryReason where
  | ready
  | replayPending
  | startup
  | missingKeyframe
  | durationEviction
  | streamPressure
  | globalPressure
  | invalidOrder
  deriving DecidableEq, Repr

structure HistorySnapshot where
  requested : Nat
  available : Nat
  retainedBytes : Nat
  pendingBytes : Nat
  reason : HistoryReason
  deriving DecidableEq, Repr

structure StreamHistory where
  duration : Nat
  budget : Nat
  gops : List Gop
  awaitingKeyframe : Bool
  discontinuous : Bool
  lastReceivedAt : Option Nat
  reason : HistoryReason
  continuous : Bool
  released : List BufferedFrame
  deriving DecidableEq, Repr

namespace StreamHistory

def withReason (history : StreamHistory) (reason : HistoryReason) : StreamHistory :=
  { history with reason := reason }

def evictOldest (budgets : Budgets) (history : StreamHistory) : Budgets × StreamHistory × Bool :=
  match history.gops with
  | [] => (budgets, { history with awaitingKeyframe := true }, false)
  | gop :: gops =>
    let awaiting := history.awaitingKeyframe || gops.isEmpty
    if history.continuous then
      (budgets,
        { history with
          gops := gops
          awaitingKeyframe := awaiting
          released := history.released ++ gop.frames },
        true)
    else
      (budgets.dropFrames gop.frames,
        { history with gops := gops, awaitingKeyframe := awaiting },
        true)

def expireLoop (now : Nat) : Nat → Budgets → StreamHistory → Budgets × StreamHistory
  | 0, budgets, history => (budgets, history)
  | fuel + 1, budgets, history =>
    match history.gops with
    | [] => (budgets, history)
    | gop :: _ =>
      if history.duration < now - gop.start then
        let (budgets, history, _) :=
          evictOldest budgets (history.withReason .durationEviction)
        expireLoop now fuel budgets history
      else (budgets, history)

/-- Every round pops a group, so their number bounds the loop. -/
def expire (budgets : Budgets) (history : StreamHistory) (now : Nat) : Budgets × StreamHistory :=
  expireLoop now history.gops.length budgets history

def evictAll : Nat → Budgets → StreamHistory → Budgets × StreamHistory
  | 0, budgets, history => (budgets, history)
  | fuel + 1, budgets, history =>
    let (budgets, history, present) := evictOldest budgets history
    if present then evictAll fuel budgets history else (budgets, history)

def discardOpen (budgets : Budgets) (history : StreamHistory) : Budgets × StreamHistory :=
  let (budgets, history) :=
    if history.continuous then evictAll (history.gops.length + 1) budgets history
    else if !history.awaitingKeyframe then
      ((history.gops.getLast?.elim budgets fun gop => budgets.dropFrames gop.frames),
        { history with gops := history.gops.dropLast })
    else (budgets, history)
  (budgets, { history with awaitingKeyframe := true, discontinuous := true })

def makeStreamRoom (bytes : Nat) :
    Nat → Budgets → StreamHistory → Budgets × StreamHistory × Bool
  | 0, budgets, history => (budgets, history, false)
  | fuel + 1, budgets, history =>
    if (budgets.stream history.budget).fits bytes then (budgets, history, true)
    else
      let (budgets, history, present) :=
        evictOldest budgets (history.withReason .streamPressure)
      if present then makeStreamRoom bytes fuel budgets history else (budgets, history, false)

/-- Older groups cannot establish continuous coverage across a discarded one, so
the first keyframe after it starts a new history. -/
def restart (budgets : Budgets) (history : StreamHistory) (keyframe : Bool) :
    Budgets × StreamHistory :=
  if keyframe && history.discontinuous then
    (budgets.dropFrames (history.gops.flatMap Gop.frames),
      { history with gops := [], discontinuous := false })
  else (budgets, history)

def closeBefore (history : StreamHistory) (keyframe : Bool) : StreamHistory :=
  { history with awaitingKeyframe := if keyframe then true else history.awaitingKeyframe }

/-- The part of `admit` after the order of the frame was accepted. -/
def admitOrdered (budgets : Budgets) (history : StreamHistory) (frame : RecordingFrame)
    (globalLimit : Nat) : Budgets × StreamHistory × Bool :=
  let keyframe := frame.isVideoKeyframe
  if history.awaitingKeyframe && !keyframe then
    (budgets,
      history.withReason (if history.reason = .startup then .missingKeyframe else history.reason),
      false)
  else
    let bytes := frame.byteLen
    let history := history.closeBefore keyframe
    let maxBytes := (budgets.stream history.budget).maxBytes
    if maxBytes < bytes || globalLimit < bytes then
      let (budgets, history) := discardOpen budgets
        (history.withReason (if maxBytes < bytes then .streamPressure else .globalPressure))
      (budgets, history, false)
    else
      let (budgets, history) := restart budgets history keyframe
      let (budgets, history, room) :=
        makeStreamRoom bytes (history.gops.length + 1) budgets history
      if !room then (budgets, history, false)
      else if history.awaitingKeyframe && !keyframe then (budgets, history, false)
      else (budgets, history, true)

def admitFrame (budgets : Budgets) (history : StreamHistory) (frame : RecordingFrame) (now : Nat)
    (globalLimit : Nat) : Budgets × StreamHistory × Bool :=
  let (budgets, history) := expire budgets history now
  let late := decide (history.duration < now - frame.receivedAt)
  if decide (now < frame.receivedAt) || late ||
      history.lastReceivedAt.any fun last => decide (frame.receivedAt < last) then
    let (budgets, history) := discardOpen budgets
      (history.withReason (if late then .durationEviction else .invalidOrder))
    (budgets, history, false)
  else
    admitOrdered budgets { history with lastReceivedAt := some frame.receivedAt } frame globalLimit

def clear (budgets : Budgets) (history : StreamHistory) : Budgets × StreamHistory :=
  (budgets.dropFrames (history.gops.flatMap Gop.frames ++ history.released),
    { history with
      gops := []
      released := []
      awaitingKeyframe := true
      discontinuous := false
      lastReceivedAt := none
      reason := .startup })

/-- Store a frame that both budgets were charged for. Without a group to append
it to, the frame is dropped. -/
def retain (budgets : Budgets) (history : StreamHistory) (frame : BufferedFrame) :
    Budgets × StreamHistory :=
  if frame.frame.isVideoKeyframe then
    (budgets,
      { history with
        reason :=
          if history.reason = .missingKeyframe ∨ history.reason = .invalidOrder then .startup
          else history.reason
        gops := history.gops ++ [⟨frame.frame.receivedAt, [frame]⟩]
        awaitingKeyframe := false })
  else
    match history.gops.getLast? with
    | none => (budgets.dropFrames [frame], history)
    | some gop =>
      (budgets,
        { history with
          gops := history.gops.dropLast ++ [⟨gop.start, gop.frames ++ [frame]⟩] })

/-- The end of `push_owned`, when the frame was admitted and the global budget has
room: charge the stream and the global budget and store the frame. -/
def store (budgets : Budgets) (history : StreamHistory) (frame : RecordingFrame) :
    Budgets × StreamHistory × Bool :=
  if history.awaitingKeyframe && !frame.isVideoKeyframe then (budgets, history, false)
  else
    let bytes := frame.byteLen
    match (budgets.stream history.budget).acquire bytes with
    | none => (budgets, history, false)
    | some charged =>
      let budgets := budgets.setStream history.budget charged
      match budgets.global.acquire bytes with
      | none =>
        let (budgets, history) :=
          discardOpen (budgets.setStream history.budget (charged.release bytes)) history
        (budgets, history, false)
      | some global =>
        let (budgets, history) :=
          retain { budgets with global := global } history ⟨frame, ⟨bytes, history.budget⟩⟩
        (budgets, history, true)

end StreamHistory

/-- Drop the audio that is not covered by the video of a replay. Packets cannot be
cut, so one that crosses a boundary goes. Returns what is kept and what is dropped. -/
def trimAudio (wallEnd : Nat) : Nat → List BufferedFrame → List BufferedFrame × List BufferedFrame
  | _, [] => ([], [])
  | audioEnd, retained :: rest =>
    match retained.frame.frame with
    | .video _ =>
      let (kept, dropped) := trimAudio wallEnd audioEnd rest
      (retained :: kept, dropped)
    | .audio audio =>
      let start := retained.frame.receivedAt
      match Instant.checkedAdd start audio.duration with
      | none =>
        let (kept, dropped) := trimAudio wallEnd audioEnd rest
        (kept, retained :: dropped)
      | some stop =>
        if start < audioEnd || wallEnd < stop || audio.duration == 0 then
          let (kept, dropped) := trimAudio wallEnd audioEnd rest
          (kept, retained :: dropped)
        else
          let (kept, dropped) := trimAudio wallEnd stop rest
          (retained :: kept, dropped)

def trimAudioToVideo (frames : List BufferedFrame) : List BufferedFrame × List BufferedFrame :=
  let video := frames.filter fun retained => retained.frame.isVideo
  match video with
  | [] => ([], frames)
  | first :: rest =>
    let last := rest.getLast?.getD first
    trimAudio last.frame.receivedAt first.frame.receivedAt frames

structure StreamKey where
  source : String
  stream : String
  deriving DecidableEq, Repr

instance : Ord StreamKey :=
  ⟨compareLex (compareOn StreamKey.source) (compareOn StreamKey.stream)⟩

instance : TransOrd StreamKey :=
  inferInstanceAs (TransCmp (compareLex (compareOn StreamKey.source) (compareOn StreamKey.stream)))

instance : LawfulEqOrd StreamKey where
  eq_of_compare {left right} h := by
    obtain ⟨hsource, hstream⟩ := compareLex_eq_eq.mp h
    cases left
    cases right
    simp_all [compareOn]

structure PreRecordBuffers where
  streams : ExtTreeMap StreamKey StreamHistory
  streamCount : Nat
  streamBytes : Nat
  budgets : Budgets

namespace PreRecordBuffers

def new (streamBytes globalBytes : Nat) : PreRecordBuffers :=
  ⟨∅, 0, streamBytes, .new globalBytes⟩

def updateStream (buffers : PreRecordBuffers) (key : StreamKey)
    (update : Budgets → StreamHistory → Budgets × StreamHistory) : PreRecordBuffers :=
  match buffers.streams[key]? with
  | none => buffers
  | some history =>
    let (budgets, history) := update buffers.budgets history
    { buffers with budgets := budgets, streams := buffers.streams.insert key history }

def updateStreams (buffers : PreRecordBuffers) (selected : StreamKey → Bool)
    (update : Budgets → StreamHistory → Budgets × StreamHistory) : PreRecordBuffers :=
  (buffers.streams.keys.filter selected).foldl (fun buffers key => buffers.updateStream key update)
    buffers

def configure (buffers : PreRecordBuffers) (source stream : String) (duration : Nat) :
    PreRecordBuffers × Bool :=
  if source.isEmpty || decide (maxIdBytes < source.utf8ByteSize) ||
      !(stream == "main" || stream == "sub") || duration == 0 || decide (30 * second < duration) ||
      buffers.streamBytes == 0 || buffers.budgets.global.maxBytes == 0 then
    (buffers, false)
  else
    match buffers.streams[StreamKey.mk source stream]? with
    | some _ =>
      (buffers.updateStream ⟨source, stream⟩ fun budgets history =>
          let (budgets, history) := StreamHistory.clear budgets history
          (budgets, { history with duration := duration }),
        true)
    | none =>
      if buffers.streamCount = maxStreams then (buffers, false)
      else
        let (budgets, budget) := buffers.budgets.create buffers.streamBytes maxStreamFrames
        let history : StreamHistory :=
          { duration := duration
            budget := budget
            gops := []
            awaitingKeyframe := true
            discontinuous := false
            lastReceivedAt := none
            reason := .startup
            continuous := false
            released := [] }
        ({ buffers with
            budgets := budgets
            streams := buffers.streams.insert ⟨source, stream⟩ history
            streamCount := buffers.streamCount + 1 },
          true)

def oldestGops (buffers : PreRecordBuffers) : List (Nat × StreamKey) :=
  buffers.streams.toList.filterMap fun (key, history) =>
    history.gops.head?.map fun gop => (gop.start, key)

def compareStamps : Nat × StreamKey → Nat × StreamKey → Ordering :=
  compareLex (compareOn Prod.fst) (compareOn Prod.snd)

def stampBefore (left right : Nat × StreamKey) : Bool := (compareStamps left right).isLT

def minStamp : List (Nat × StreamKey) → Option (Nat × StreamKey)
  | [] => none
  | stamp :: stamps =>
    match minStamp stamps with
    | none => some stamp
    | some best => if stampBefore best stamp then some best else some stamp

def oldestGop (buffers : PreRecordBuffers) : Option (Nat × StreamKey) :=
  minStamp buffers.oldestGops

def makeGlobalRoomLoop (key : StreamKey) (frame : RecordingFrame) :
    Nat → PreRecordBuffers → PreRecordBuffers × Bool
  | 0, buffers => (buffers, false)
  | fuel + 1, buffers =>
    let keyframe := frame.isVideoKeyframe
    if buffers.budgets.global.fits frame.byteLen then (buffers, true)
    else
      match buffers.oldestGop with
      | none => (buffers, false)
      | some (start, oldest) =>
        if keyframe && stampBefore (frame.receivedAt, key) (start, oldest) then (buffers, false)
        else
          let buffers := buffers.updateStream oldest fun budgets history =>
            let (budgets, history, _) :=
              StreamHistory.evictOldest budgets (history.withReason .globalPressure)
            (budgets, history)
          if !keyframe && buffers.streams[key]?.any StreamHistory.awaitingKeyframe then
            (buffers, false)
          else makeGlobalRoomLoop key frame fuel buffers

/-- Every round pops a group of some stream, so their number bounds the loop. -/
def makeGlobalRoom (buffers : PreRecordBuffers) (key : StreamKey) (frame : RecordingFrame) :
    PreRecordBuffers × Bool :=
  makeGlobalRoomLoop key frame (total (fun _ history => history.gops.length) buffers.streams + 1)
    buffers

def storeAdmitted (buffers : PreRecordBuffers) (key : StreamKey) (frame : RecordingFrame) :
    PreRecordBuffers × Except RecordingFrame Unit :=
  let (buffers, room) := buffers.makeGlobalRoom key frame
  if !room then
    (buffers.updateStream key fun budgets history => (budgets, history.withReason .globalPressure),
      .error frame)
  else
    match buffers.streams[key]? with
    | none => (buffers, .error frame)
    | some history =>
      let (budgets, history, stored) := history.store buffers.budgets frame
      ({ buffers with budgets := budgets, streams := buffers.streams.insert key history },
        if stored then .ok () else .error frame)

def pushOwned (buffers : PreRecordBuffers) (key : StreamKey) (frame : RecordingFrame) (now : Nat) :
    PreRecordBuffers × Except RecordingFrame Unit :=
  match buffers.streams[key]? with
  | none => (buffers, .error frame)
  | some history =>
    let (budgets, history, admitted) :=
      history.admitFrame buffers.budgets frame now buffers.budgets.global.maxBytes
    let buffers :=
      { buffers with budgets := budgets, streams := buffers.streams.insert key history }
    if !admitted then (buffers, .error frame) else buffers.storeAdmitted key frame

def setContinuous (buffers : PreRecordBuffers) (key : StreamKey) (continuous : Bool) :
    PreRecordBuffers :=
  buffers.updateStream key fun budgets history =>
    (budgets, { history with continuous := continuous })

def clearSource (buffers : PreRecordBuffers) (source : String) : PreRecordBuffers :=
  buffers.updateStreams (fun key => key.source == source) StreamHistory.clear

def clearStream (buffers : PreRecordBuffers) (key : StreamKey) : PreRecordBuffers :=
  buffers.updateStream key StreamHistory.clear

def removeStream (buffers : PreRecordBuffers) (key : StreamKey) : PreRecordBuffers :=
  match buffers.streams[key]? with
  | none => buffers
  | some history =>
    { buffers with
      budgets := buffers.budgets.dropFrames (history.gops.flatMap Gop.frames ++ history.released)
      streams := buffers.streams.erase key
      streamCount := buffers.streamCount - 1 }

def removeSource (buffers : PreRecordBuffers) (source : String) : PreRecordBuffers :=
  (buffers.streams.keys.filter fun key => key.source == source).foldl removeStream buffers

def nextReleased (buffers : PreRecordBuffers) :
    PreRecordBuffers × Option (StreamKey × BufferedFrame) :=
  match buffers.streams.toList.find? fun entry => !entry.2.released.isEmpty with
  | none => (buffers, none)
  | some (key, history) =>
    match history.released with
    | [] => (buffers, none)
    | frame :: released =>
      ({ buffers with
          streams := buffers.streams.insert key { history with released := released } },
        some (key, frame))

def expire (buffers : PreRecordBuffers) (now : Nat) : PreRecordBuffers :=
  buffers.updateStreams (fun _ => true) fun budgets history => history.expire budgets now

def take (buffers : PreRecordBuffers) (key : StreamKey) (now : Nat) :
    PreRecordBuffers × List BufferedFrame :=
  match buffers.streams[key]? with
  | none => (buffers, [])
  | some history =>
    let (budgets, history) := history.expire buffers.budgets now
    let frames := history.gops.flatMap Gop.frames
    let history :=
      { history with
        gops := []
        awaitingKeyframe := true
        reason := if frames.isEmpty then history.reason else .startup }
    let (frames, trimmed) := trimAudioToVideo frames
    ({ buffers with
        budgets := budgets.dropFrames trimmed
        streams := buffers.streams.insert key history },
      frames)

def snapshot (buffers : PreRecordBuffers) (key : StreamKey) (now : Nat) :
    PreRecordBuffers × Option HistorySnapshot :=
  match buffers.streams[key]? with
  | none => (buffers, none)
  | some history =>
    let (budgets, history) := history.expire buffers.budgets now
    let start := history.gops.head?.map Gop.start
    let stop := history.gops.getLast?.bind fun gop =>
      (gop.frames.reverse.find? fun frame => frame.frame.isVideo).map fun frame =>
        frame.frame.receivedAt
    let retainedBytes :=
      ((history.gops.flatMap Gop.frames).map fun frame => frame.frame.byteLen).sum
    let reservedBytes := (budgets.stream history.budget).bytes
    let available :=
      match start, stop with
      | some start, some stop => stop - start
      | _, _ => 0
    let pendingBytes := reservedBytes - retainedBytes
    let reason :=
      if history.duration ≤ available then .ready
      else if history.gops.isEmpty && decide (0 < pendingBytes) then .replayPending
      else history.reason
    ({ buffers with budgets := budgets, streams := buffers.streams.insert key history },
      some ⟨history.duration, available, retainedBytes, pendingBytes, reason⟩)

end PreRecordBuffers

end KeepPeek.Storage
