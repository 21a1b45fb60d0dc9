import Mathlib.Logic.Function.Basic

/-!
This module contains the constants and the stream statistics that the threads of `video.c` share.
The statistics are only kept while the overlay is on and no decision of the pipeline reads them.
-/

namespace Video

def vdecBufCount : Nat := 4

def vdecFrameCount : Nat := 6

def submitQueueSize : Nat := 16

/-
What a step reads from outside of `video.c`: `ui_get_show_stats`, `sysGetSystemTime` and the estimate
of `LiGetEstimatedRttInfo`.
-/
structure Clock where
  showStats : Bool
  now : UInt64
  rtt : Option UInt32
  deriving Inhabited

structure Stats where
  lastFpsTime : UInt64
  framesThisSecond : Nat
  currentVideoFps : Nat
  decodedFramesThisSecond : Nat
  currentDecodedFps : Nat
  totalDecodedFrames : UInt32
  submittedFramesThisSecond : Nat
  currentSubmittedFps : Nat
  droppedFramesThisSecond : Nat
  currentDroppedFps : Nat
  submitQueue : Nat → UInt64
  submitHead : Nat
  submitTail : Nat
  submitCount : Nat
  decodeLatencySum : UInt64
  decodeLatencyCount : UInt32
  renderLatencySum : UInt64
  renderLatencyCount : UInt32
  currentDecodeLatencyMs : UInt64
  currentRenderLatencyMs : UInt64
  currentNetLatencyMs : UInt32
  deriving Inhabited

namespace Stats

-- the total number of decoded frames is the one counter that survives a reset
def reset (st : Stats) : Stats :=
  { st with
    submitHead := 0
    submitTail := 0
    submitCount := 0
    decodeLatencySum := 0
    decodeLatencyCount := 0
    renderLatencySum := 0
    renderLatencyCount := 0
    currentDecodeLatencyMs := 0
    currentRenderLatencyMs := 0
    currentNetLatencyMs := 0
    framesThisSecond := 0
    decodedFramesThisSecond := 0
    submittedFramesThisSecond := 0
    droppedFramesThisSecond := 0
    currentVideoFps := 0
    currentDecodedFps := 0
    currentSubmittedFps := 0
    currentDroppedFps := 0
    lastFpsTime := 0 }

def noteSubmitted (st : Stats) (clock : Clock) : Stats :=
  if clock.showStats then
    { st with submittedFramesThisSecond := st.submittedFramesThisSecond + 1 }
  else
    st

def noteDropped (st : Stats) (clock : Clock) : Stats :=
  if clock.showStats then
    { st with droppedFramesThisSecond := st.droppedFramesThisSecond + 1 }
  else
    st

def pushSubmitTime (st : Stats) (clock : Clock) : Stats :=
  if clock.showStats then
    let st :=
      { st with
        submitQueue := Function.update st.submitQueue st.submitHead clock.now
        submitHead := (st.submitHead + 1) % submitQueueSize }
    if st.submitCount < submitQueueSize then
      { st with submitCount := st.submitCount + 1 }
    else
      { st with submitTail := (st.submitTail + 1) % submitQueueSize }
  else
    st

def popSubmitTime (st : Stats) (clock : Clock) : Stats :=
  if clock.showStats && 0 < st.submitCount then
    let submitTime := st.submitQueue st.submitTail
    { st with
      submitTail := (st.submitTail + 1) % submitQueueSize
      submitCount := st.submitCount - 1
      decodeLatencySum := st.decodeLatencySum + (clock.now - submitTime)
      decodeLatencyCount := st.decodeLatencyCount + 1 }
  else
    st

def noteDecoded (st : Stats) (clock : Clock) : Stats :=
  if clock.showStats then
    { st with
      totalDecodedFrames := st.totalDecodedFrames + 1
      decodedFramesThisSecond := st.decodedFramesThisSecond + 1 }
  else
    st

def noteShown (st : Stats) (clock : Clock) (readyTime : UInt64) : Stats :=
  if clock.showStats then
    { st with
      framesThisSecond := st.framesThisSecond + 1
      renderLatencySum := st.renderLatencySum + (clock.now - readyTime)
      renderLatencyCount := st.renderLatencyCount + 1 }
  else
    st

/-
The unlocked head of `ps3video_draw`: once a second the counters become the displayed numbers.
-/
def roll (st : Stats) (clock : Clock) : Stats :=
  if clock.showStats then
    let st := if st.lastFpsTime = 0 then { st with lastFpsTime := clock.now } else st
    if 1000000 ≤ clock.now - st.lastFpsTime then
      { st with
        currentVideoFps := st.framesThisSecond
        currentDecodedFps := st.decodedFramesThisSecond
        currentSubmittedFps := st.submittedFramesThisSecond
        currentDroppedFps := st.droppedFramesThisSecond
        currentDecodeLatencyMs :=
          if 0 < st.decodeLatencyCount then
            (st.decodeLatencySum / st.decodeLatencyCount.toUInt64) / 1000
          else
            0
        currentRenderLatencyMs :=
          if 0 < st.renderLatencyCount then
            (st.renderLatencySum / st.renderLatencyCount.toUInt64) / 1000
          else
            0
        currentNetLatencyMs := clock.rtt.getD 0
        decodeLatencySum := 0
        decodeLatencyCount := 0
        renderLatencySum := 0
        renderLatencyCount := 0
        framesThisSecond := 0
        decodedFramesThisSecond := 0
        submittedFramesThisSecond := 0
        droppedFramesThisSecond := 0
        lastFpsTime := clock.now }
    else
      st
  else
    st

end Stats

end Video
