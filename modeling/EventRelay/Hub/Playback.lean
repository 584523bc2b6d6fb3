import EventRelay.Hub

/-!
# What a stream plays

A stream that plays live is in the live set while anybody watches it. A stream that plays history
and comes to its end goes live if it plays forwards, and stops if it plays backwards. A stream that
nobody watches leaves the live set and pauses its replay.
-/

namespace EventRelay.Hub

/-! ## The replay of a stream -/

/-- Changes the replay of a stream. What is armed later in the same millisecond goes off later. -/
def modifyReplay (h : Hub) (i : StreamId) (f : Replay → Replay) : Hub :=
  { h.modifyStream i fun s => { s with replay := f s.replay } with
    now := ⟨h.now.ms, h.now.turn + 1⟩ }

def pauseReplay (h : Hub) (i : StreamId) : Hub := h.modifyReplay i Replay.pause

def seekReplay (h : Hub) (i : StreamId) (position : Position) : Hub :=
  h.modifyReplay i (·.seek h.now position)

/-- Leaves history for the live feed. -/
def goLive (h : Hub) (i : StreamId) : Hub :=
  let h := (h.pauseReplay i).modifyStream i fun s => { s with live := true }
  if (h.stream i).playing then h.registerLive i else h

/-- The end of history: a forward replay goes live, a reverse one stops at the beginning. -/
def handleExhausted (h : Hub) (i : StreamId) : Hub :=
  match (h.stream i).replay.direction with
  | .forward => h.goLive i
  | .reverse => h.modifyStream i fun s => { s with playing := false }

/-- Runs the replay for those who watch, and pauses it if nobody does. -/
def runReplay (h : Hub) (i : StreamId) : Hub :=
  if h.subscriberCount i = 0 then h.pauseReplay i
  else
    let outcome := ((h.stream i).replay.run h.config h.archive h.now).2
    let h := h.modifyReplay i fun r => (r.run h.config h.archive h.now).1
    match outcome with
    | .scheduled => h
    | .exhausted => h.handleExhausted i

/-- Nobody watches any more. -/
def idle (h : Hub) (i : StreamId) : Hub :=
  let h := if (h.stream i).live then h else h.pauseReplay i
  if (h.stream i).attached then h.unsubscribeIfIdle i else h

/-! ## Control of a stream -/

def setLive (h : Hub) (i : StreamId) (live : Bool) : Hub :=
  h.modifyStream i fun s => { s with live }

def setPlaying (h : Hub) (i : StreamId) (playing : Bool) : Hub :=
  h.modifyStream i fun s => { s with playing }

/-- Joins the live feed or resumes the replay, whichever the stream plays. -/
def play (h : Hub) (i : StreamId) : Hub :=
  if (h.stream i).live then h.registerLive i else h.runReplay i

def startStream (h : Hub) (i : StreamId) : Hub :=
  if (h.stream i).playing then h else (h.setPlaying i true).play i

/-- Stops. A live stream notes the time at which it stopped as its place in history. -/
def stopStream (h : Hub) (i : StreamId) : Hub :=
  if !(h.stream i).playing then h
  else
    let h := h.setPlaying i false
    if (h.stream i).live then (h.deregisterLive i).seekReplay i (.time h.wallClock)
    else h.pauseReplay i

/-- Leaves the live feed for a place in history. -/
def leaveLive (h : Hub) (i : StreamId) (position : Position) : Hub :=
  let h := (h.setLive i false).seekReplay i position
  if (h.stream i).playing then (h.deregisterLive i).runReplay i else h

def seekStream (h : Hub) (i : StreamId) (position : Position) : Hub :=
  let s := h.stream i
  match s.live, position with
  | true, .eof => h
  | true, .time _ => h.leaveLive i position
  | false, .eof =>
    if !s.playing then (h.seekReplay i position).setLive i true
    else if s.replay.speed.isNegative then (h.seekReplay i position).runReplay i
    else h.goLive i
  | false, .time _ =>
    let h := h.seekReplay i position
    if s.playing then h.runReplay i else h

/-- Sets the speed; a speed of zero stops. The live feed only runs at its own pace: at less than
normal speed the stream turns to history, from its end. Returns whether the speed was accepted. -/
def setSpeed (h : Hub) (i : StreamId) (speed : Binary32) : Hub × Bool :=
  if speed.isZero then (h.stopStream i, true)
  else if !Replay.acceptsSpeed speed then (h, false)
  else
    let h := h.modifyReplay i (·.setSpeed h.now speed)
    let s := h.stream i
    if s.live then
      if speed.isAtLeastOne then (h, true) else (h.leaveLive i .eof, true)
    else if s.playing then (h.runReplay i, true)
    else (h, true)

def describe (h : Hub) (i : StreamId) (description : String) : Hub :=
  h.modifyStream i fun s => { s with description }

end EventRelay.Hub
