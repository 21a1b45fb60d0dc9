import PS3Moonlight.Lib.Transition
import Mathlib.Data.Rat.Defs

/-!
This module contains the SPU Opus bridge: the PPU side of `spu_opus_bridge.c` and the worker of
`spu_opus.c` as two parties that share the command block, the two bounce buffers and the signal
register. Every access to something shared is a step of its own, a DMA transfer is one step.
-/

namespace Audio
namespace SpuOpus

def spuOpusMaxPacketLen : Nat := 1024

def spuOpusMaxSamples : Nat := 960

def maxChannels : Nat := 2

inductive Command where
  | nop
  | quit
  | init
  | decode
  | reset
  deriving DecidableEq

inductive Status where
  | idle
  | busy
  | ok
  | err
  deriving DecidableEq

/-
The effective addresses in the command block: null or the one bounce buffer the field is for.
-/
inductive Ea where
  | null
  | bounce
  deriving DecidableEq

/- `spu_opus_cmd_t` -/
structure CommandBlock where
  cmd : Command
  status : Status
  sampleRate : UInt32
  channels : UInt32
  opusLen : Nat
  decodedSamples : Nat
  elapsedTicks : UInt32
  eaOpusIn : Ea
  eaPcmOut : Ea

/-
What the worker uses of libopus: the result of `opus_multistream_decode` is the new decoder state, the
number of samples for each channel or an error, and the interleaved samples. It never decodes more
than the frame size it is given.
-/
structure Decoder (δ : Type) where
  init : UInt32 → UInt32 → δ × Bool
  decode : δ → Option (List UInt8) → δ × Int × List Int16
  count_le : ∀ state packet, (decode state packet).snd.fst ≤ spuOpusMaxSamples
  length_pcm : ∀ state packet,
    ((decode state packet).snd.snd.length : Int) = maxChannels * (decode state packet).snd.fst
      ∨
    (decode state packet).snd.fst ≤ 0

/- `spu_opus_pcm16_to_float`, the floats are exact. -/
def pcm16ToFloat (src : List Int16) (count : Nat) : List Rat :=
  (src.take count).map fun sample => sample.toInt / 32768

/- The arguments of one call, the packet has as many bytes as the caller says. -/
structure DecodeCall where
  opusData : Option (List UInt8)
  opusLen : Int
  hasOutput : Bool
  maxSamples : Int
  enough : ∀ data, opusData = some data → opusLen ≤ data.length

namespace DecodeCall

/- The packet of the call, there is none if a packet was lost. -/
def packet (call : DecodeCall) : Option (List UInt8) :=
  match call.opusData with
  | none => none
  | some data => if 0 < call.opusLen then some (data.take call.opusLen.toNat) else none

def inLen (call : DecodeCall) : Nat :=
  min (if call.opusData.isSome && 0 < call.opusLen then call.opusLen.toNat else 0)
    spuOpusMaxPacketLen

def bytes (call : DecodeCall) : List UInt8 :=
  (call.opusData.getD []).take call.inLen

end DecodeCall

inductive ReturnCode where
  | ok
  | failed
  | einval
  | etimedout
  deriving DecidableEq

/- The number in `*out_samples` and what was copied to `out_pcm`. -/
structure Output where
  outSamples : Int
  outPcm : List Rat

/-
The next statement of the PPU. Behind `initStoring` and `storing` stands the number of fields of the
command block that are already written.
-/
inductive Ppu where
  | initStoring (stores : Nat)
  | initSignalling
  | initPolling
  | initChecking
  | ready
  | copyingIn (call : DecodeCall)
  | storing (call : DecodeCall) (stores : Nat)
  | signalling (call : DecodeCall)
  | polling (call : DecodeCall)
  | checking (call : DecodeCall)
  | readingCount (call : DecodeCall)
  | copyingOut (call : DecodeCall) (decoded : Int)
  | readingTicks (call : DecodeCall) (output : Output)
  | readingStatus (call : DecodeCall) (output : Output)
  | returned (call : DecodeCall) (code : ReturnCode) (output : Option Output)
  | quitStoring
  | quitSignalling
  | joining
  | closed

/- The next statement of the worker. -/
inductive Spu where
  | waiting
  | fetching
  | dispatching
  | gettingPacket
  | decoding
  | puttingPcm (decoded : Nat)
  | puttingCmd
  | quitting
  | exited
  deriving DecidableEq

structure Bridge (δ : Type) where
  gCmd : CommandBlock
  gBounceOpus : List UInt8
  gBouncePcm : List Rat
  gInitialized : Bool
  gLastElapsed : UInt32
  signal1 : Option Command
  ppu : Ppu
  spu : Spu
  lsCmd : CommandBlock
  lsOpusIn : List UInt8
  lsPcmFloat : List Rat
  gMsDecoder : Option δ

variable {δ : Type}

namespace Bridge

/- The contents of a buffer after its first elements have been overwritten. -/
def overlay {α : Type} (src dst : List α) : List α :=
  src ++ dst.drop src.length

/-
The PPU side.
-/

/- The group is started and the command block zeroed, `spu_opus_init` is about to send INIT. -/
def start (s : Bridge δ) : Bridge δ :=
  { s with
    gCmd :=
      { cmd := .nop
        status := .idle
        sampleRate := 0
        channels := 0
        opusLen := 0
        decodedSamples := 0
        elapsedTicks := 0
        eaOpusIn := .null
        eaPcmOut := .null }
    gInitialized := false
    signal1 := none
    ppu := .initStoring 0
    spu := .waiting
    gMsDecoder := none }

def storeInit (cmd : CommandBlock) (sampleRate channels : UInt32) (stores : Nat) : CommandBlock :=
  match stores with
  | 0 => { cmd with cmd := .init }
  | 1 => { cmd with status := .busy }
  | 2 => { cmd with sampleRate := if sampleRate = 0 then 48000 else sampleRate }
  | 3 => { cmd with channels := if channels = 0 then 2 else channels }
  | 4 => { cmd with eaOpusIn := .bounce }
  | _ => { cmd with eaPcmOut := .bounce }

def storeDecode (cmd : CommandBlock) (inLen : Nat) (stores : Nat) : CommandBlock :=
  match stores with
  | 0 => { cmd with cmd := .decode }
  | 1 => { cmd with status := .busy }
  | 2 => { cmd with opusLen := inLen }
  | 3 => { cmd with eaOpusIn := .bounce }
  | _ => { cmd with eaPcmOut := .bounce }

def callDecode (s : Bridge δ) (call : DecodeCall) : Bridge δ :=
  if !s.gInitialized || !call.hasOutput then
    { s with ppu := .returned call .einval none }
  else
    { s with ppu := .copyingIn call }

def copyOut (s : Bridge δ) (decoded : Int) : Output where
  outSamples := decoded
  outPcm := if 0 < decoded then s.gBouncePcm.take (decoded.toNat * 2) else []

/-
One statement of the PPU, the flag says whether 20 ms have passed when the clock is looked at.
-/
def ppuStep (s : Bridge δ) (sampleRate channels : UInt32) (timeout : Bool) : Option (Bridge δ) :=
  match s.ppu with
  | .initStoring stores =>
    some
      { s with
        gCmd := storeInit s.gCmd sampleRate channels stores
        ppu := if stores < 5 then .initStoring (stores + 1) else .initSignalling }
  | .initSignalling => some { s with signal1 := some .init, ppu := .initPolling }
  | .initPolling =>
    if s.gCmd.status = .busy then
      some { s with ppu := .initChecking }
    else
      some { s with gInitialized := true, ppu := .ready }
  | .initChecking => some { s with ppu := if timeout then .closed else .initPolling }
  | .ready => none
  | .copyingIn call =>
    if 0 < call.inLen then
      some { s with gBounceOpus := overlay call.bytes s.gBounceOpus, ppu := .storing call 0 }
    else
      some { s with ppu := .storing call 0 }
  | .storing call stores =>
    some
      { s with
        gCmd := storeDecode s.gCmd call.inLen stores
        ppu := if stores < 4 then .storing call (stores + 1) else .signalling call }
  | .signalling call => some { s with signal1 := some .decode, ppu := .polling call }
  | .polling call =>
    if s.gCmd.status = .busy then
      some { s with ppu := .checking call }
    else
      some { s with ppu := .readingCount call }
  | .checking call =>
    some { s with ppu := if timeout then .returned call .etimedout none else .polling call }
  | .readingCount call =>
    some { s with ppu := .copyingOut call (min s.gCmd.decodedSamples call.maxSamples) }
  | .copyingOut call decoded => some { s with ppu := .readingTicks call (s.copyOut decoded) }
  | .readingTicks call output =>
    some { s with gLastElapsed := s.gCmd.elapsedTicks, ppu := .readingStatus call output }
  | .readingStatus call output =>
    some
      { s with
        ppu := .returned call (if s.gCmd.status = .ok then .ok else .failed) (some output) }
  | .returned _ _ _ => none
  | .quitStoring => some { s with gCmd := { s.gCmd with cmd := .quit }, ppu := .quitSignalling }
  | .quitSignalling => some { s with signal1 := some .quit, ppu := .joining }
  | .joining =>
    match s.spu with
    | .exited => some { s with gInitialized := false, ppu := .closed }
    | _ => none
  | .closed => none

/-
The worker.
-/

def spuOpusInitDecoder (d : Decoder δ) (sampleRate channels : UInt32) : δ × Bool :=
  d.init (if sampleRate = 0 then 48000 else sampleRate) (if channels = 0 then 2 else channels)

def inBytes (s : Bridge δ) : Nat :=
  min s.lsCmd.opusLen spuOpusMaxPacketLen

/- A transfer of the MFC is a multiple of 16 bytes. -/
def dmaLen (bytes : Nat) : Nat :=
  (bytes + 15) / 16 * 16

def fail (s : Bridge δ) : Bridge δ :=
  { s with
    lsCmd := { s.lsCmd with decodedSamples := 0, status := .err }
    spu := .puttingCmd }

def startDecode (s : Bridge δ) : Bridge δ :=
  { s with
    spu := if 0 < s.inBytes ∧ s.lsCmd.eaOpusIn ≠ .null then .gettingPacket else .decoding }

def dispatch (d : Decoder δ) (s : Bridge δ) : Bridge δ :=
  match s.lsCmd.cmd with
  | .quit => { s with lsCmd := { s.lsCmd with status := .ok }, spu := .quitting }
  | .init =>
    let decoder := spuOpusInitDecoder d s.lsCmd.sampleRate s.lsCmd.channels
    { s with
      gMsDecoder := some decoder.fst
      lsCmd :=
        { s.lsCmd with
          status := if decoder.snd then .ok else .err
          decodedSamples := 0 }
      spu := .puttingCmd }
  | .decode =>
    match s.gMsDecoder with
    | some _ => s.startDecode
    | none =>
      let decoder := spuOpusInitDecoder d 48000 2
      if decoder.snd then
        { s with gMsDecoder := some decoder.fst }.startDecode
      else
        { s with gMsDecoder := some decoder.fst }.fail
  | _ => { s with lsCmd := { s.lsCmd with status := .ok }, spu := .puttingCmd }

def getPacket (s : Bridge δ) : Bridge δ :=
  { s with
    lsOpusIn := overlay (s.gBounceOpus.take (dmaLen s.inBytes)) s.lsOpusIn
    spu := .decoding }

/- The packet that the decoder is called with. -/
def decoderInput (s : Bridge δ) : Option (List UInt8) :=
  if 0 < s.inBytes then some (s.lsOpusIn.take s.inBytes) else none

def totalSamples (decoded : Nat) : Nat :=
  min (decoded * 2) (spuOpusMaxSamples * maxChannels)

def decodeFrame (d : Decoder δ) (s : Bridge δ) (decoder : δ) : Bridge δ :=
  let result := d.decode decoder s.decoderInput
  let s := { s with gMsDecoder := some result.fst }
  if 0 < result.snd.fst then
    let decoded := result.snd.fst.toNat
    { s with
      lsPcmFloat := overlay (pcm16ToFloat result.snd.snd (totalSamples decoded)) s.lsPcmFloat
      spu := .puttingPcm decoded }
  else
    s.fail

def putPcm (s : Bridge δ) (decoded : Nat) : Bridge δ :=
  { s with
    gBouncePcm :=
      match s.lsCmd.eaPcmOut with
      | .null => s.gBouncePcm
      | .bounce => overlay (s.lsPcmFloat.take (dmaLen (totalSamples decoded * 4) / 4)) s.gBouncePcm
    lsCmd := { s.lsCmd with decodedSamples := decoded, status := .ok }
    spu := .puttingCmd }

/-
One statement of the worker, which blocks on the signal register and ignores the value it reads.
-/
def spuStep (d : Decoder δ) (s : Bridge δ) (ticks : UInt32) : Option (Bridge δ) :=
  match s.spu with
  | .waiting =>
    match s.signal1 with
    | none => none
    | some _ => some { s with signal1 := none, spu := .fetching }
  | .fetching => some { s with lsCmd := s.gCmd, spu := .dispatching }
  | .dispatching => some (s.dispatch d)
  | .gettingPacket => some s.getPacket
  | .decoding =>
    match s.gMsDecoder with
    | none => none
    | some decoder => some (s.decodeFrame d decoder)
  | .puttingPcm decoded => some (s.putPcm decoded)
  | .puttingCmd =>
    let cmd := { s.lsCmd with elapsedTicks := ticks }
    some { s with lsCmd := cmd, gCmd := cmd, spu := .waiting }
  | .quitting => some { s with gCmd := s.lsCmd, spu := .exited }
  | .exited => none

end Bridge

inductive Event where
  | ppu (timeout : Bool)
  | spu (ticks : UInt32)
  | call (call : DecodeCall)
  | shutdown

/- Whether the PPU is outside of the bridge. -/
def Ppu.atRest (ppu : Ppu) : Bool :=
  match ppu with
  | .ready => true
  | .returned _ _ _ => true
  | .closed => true
  | _ => false

def step (d : Decoder δ) (sampleRate channels : UInt32) (s : Bridge δ) (e : Event)
    : Option (Bridge δ) :=
  match e with
  | .ppu timeout => s.ppuStep sampleRate channels timeout
  | .spu ticks => s.spuStep d ticks
  | .call call => if s.ppu.atRest then some (s.callDecode call) else none
  | .shutdown =>
    if s.ppu.atRest then
      some { s with ppu := if s.gInitialized then .quitStoring else .closed }
    else
      none

/-
Both parties from the start of the group on, whatever the buffers hold.
-/
def machine (d : Decoder δ) (sampleRate channels : UInt32) (s : Bridge δ)
    : Transition.Machine (Bridge δ) Event where
  init := s.start
  step := step d sampleRate channels

end SpuOpus
end Audio
