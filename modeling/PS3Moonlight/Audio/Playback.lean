import PS3Moonlight.Audio.Channels
import PS3Moonlight.Audio.SpuOpusCall

/-!
This module contains `ps3_renderer_decode_and_play_sample` on its two paths, over the SPU bridge with a
worker that answers in time, and over the software decoder. What libopus does on either of them is a
parameter.
-/

namespace Audio

/- Which bytes are a packet of Opus, and how many samples it has for each channel. -/
structure Packets where
  duration : List UInt8 → Option Nat
  duration_pos : ∀ packet samples, duration packet = some samples → 0 < samples

/- The samples that are decoded into a frame of the given size, without a packet as many as there fit. -/
def Packets.samples (packets : Packets) (frameSize : Nat) (packet : Option (List UInt8)) : Nat :=
  match packet with
  | none => frameSize
  | some packet =>
    match packets.duration packet with
    | none => 0
    | some samples => if samples ≤ frameSize then samples else 0

/-
A multistream decoder for two channels, the result is its new state, the number of samples or an error,
and the interleaved samples.
-/
structure Opus (packets : Packets) (δ α : Type) where
  decode : δ → Option (List UInt8) → Nat → δ × Int × List α
  lost : ∀ state frameSize, (decode state none frameSize).snd.fst = frameSize
  valid : ∀ state packet frameSize samples, packets.duration packet = some samples
    → samples ≤ frameSize → (decode state (some packet) frameSize).snd.fst = samples
  tooLong : ∀ state packet frameSize samples, packets.duration packet = some samples
    → frameSize < samples → (decode state (some packet) frameSize).snd.fst < 0
  invalid : ∀ state packet frameSize, packets.duration packet = none
    → (decode state (some packet) frameSize).snd.fst < 0
  length_pcm : ∀ state packet frameSize, 0 ≤ (decode state packet frameSize).snd.fst
    → ((decode state packet frameSize).snd.snd.length : Int)
      = audioChannels * (decode state packet frameSize).snd.fst

variable {packets : Packets} {δ ε α : Type}

theorem Opus.toNat_count (opus : Opus packets δ α) (state : δ) (packet : Option (List UInt8))
    (frameSize : Nat)
    : (opus.decode state packet frameSize).snd.fst.toNat = packets.samples frameSize packet := by
  cases packet with
  | none =>
    rw [opus.lost]
    rfl
  | some packet =>
    unfold Packets.samples
    dsimp only
    split
    . next hinvalid =>
      have hcount := opus.invalid state packet frameSize hinvalid
      omega
    . next samples hsamples =>
      split
      . next hle =>
        rw [opus.valid state packet frameSize samples hsamples hle]
        rfl
      . next hlong =>
        have hcount := opus.tooLong state packet frameSize samples hsamples (by omega)
        omega

theorem Packets.samples_le (packets : Packets) (frameSize : Nat) (packet : Option (List UInt8))
    : packets.samples frameSize packet ≤ frameSize := by
  unfold Packets.samples
  split
  . apply Nat.le_refl
  . split
    . apply Nat.zero_le
    . split
      . assumption
      . apply Nat.zero_le

/- The worker gives its decoder room for one frame of 20 ms. -/
def Opus.spuDecoder (opus : Opus packets δ Int16) (init : UInt32 → UInt32 → δ × Bool)
    : SpuOpus.Decoder δ where
  init := init
  decode state packet := opus.decode state packet SpuOpus.spuOpusMaxSamples
  count_le := by
    intro state packet
    have hcount := opus.toNat_count state packet SpuOpus.spuOpusMaxSamples
    have hle := packets.samples_le SpuOpus.spuOpusMaxSamples packet
    omega
  length_pcm := by
    intro state packet
    have hpcm := opus.length_pcm state packet SpuOpus.spuOpusMaxSamples
    unfold audioChannels at hpcm
    unfold SpuOpus.maxChannels
    omega

/- What the stream hands to the callback, a lost packet has no data. -/
structure Delivery where
  data : Option (List UInt8)
  length : Nat
  elapsedTicks : UInt32
  enough : length ≤ (data.getD []).length

/- The arguments for the bridge. -/
def Delivery.call (c : Delivery) : SpuOpus.DecodeCall where
  opusData := c.data
  opusLen := c.length
  hasOutput := true
  maxSamples := maxOpusFrameSize
  enough := by
    intro data hdata
    have henough := c.enough
    rw [hdata, Option.getD_some] at henough
    omega

structure Renderer (δ ε : Type) where
  gUseSpuOpus : Bool
  bridge : SpuOpus.Bridge δ
  opusDecoder : Option ε
  rb : PcmRing Rat
  audioDecodedPacketsCount : Nat

/- libopus on the SPU and on the host. -/
structure Codecs (packets : Packets) (δ ε : Type) where
  spu : Opus packets δ Int16
  spuInit : UInt32 → UInt32 → δ × Bool
  host : Opus packets ε Rat

namespace Renderer

def decodeSpu (codecs : Codecs packets δ ε) (r : Renderer δ ε) (c : Delivery)
    : Renderer δ ε × Option (List Rat) :=
  let bridge := r.bridge.decodeFloat (codecs.spu.spuDecoder codecs.spuInit) c.elapsedTicks c.call
  let r := { r with bridge := bridge }
  match bridge.ppu with
  | .returned _ .ok (some output) =>
    if output.outSamples ≤ 0 then
      ⟨r, none⟩
    else
      ⟨r, some (output.outPcm.take (output.outSamples.toNat * audioChannels))⟩
  | _ => ⟨r, none⟩

def decodeHost (codecs : Codecs packets δ ε) (r : Renderer δ ε) (c : Delivery)
    : Renderer δ ε × Option (List Rat) :=
  match r.opusDecoder with
  | none => ⟨r, none⟩
  | some decoder =>
    let result := codecs.host.decode decoder c.call.packet maxOpusFrameSize
    let r := { r with opusDecoder := some result.fst }
    if result.snd.fst < 0 then
      ⟨r, none⟩
    else
      ⟨r, some (result.snd.snd.take (result.snd.fst.toNat * audioChannels))⟩

/- The renderer after the call, and the floats that were pushed into the ring. -/
def decodeAndPlaySample (codecs : Codecs packets δ ε) (r : Renderer δ ε) (c : Delivery)
    : Renderer δ ε × List Rat :=
  let decoded := if r.gUseSpuOpus then r.decodeSpu codecs c else r.decodeHost codecs c
  match decoded.snd with
  | none => ⟨decoded.fst, []⟩
  | some floats =>
    ⟨{ decoded.fst with
        rb := decoded.fst.rb.rbWrite floats
        audioDecodedPacketsCount := decoded.fst.audioDecodedPacketsCount + 1 },
      floats⟩

/- The floats that are pushed for each packet of a stream. -/
def pushed (codecs : Codecs packets δ ε) (r : Renderer δ ε) (deliveries : List Delivery)
    : List (List Rat) :=
  (Transition.trace (decodeAndPlaySample codecs) r deliveries).snd

/- Every call pushes this many samples for both channels. -/
def PushesEach (codecs : Codecs packets δ ε) (r : Renderer δ ε) (deliveries : List Delivery)
    (samples : Nat) : Prop :=
  ∀ floats, floats ∈ r.pushed codecs deliveries → floats.length = samples * audioChannels

structure OnSpu (r : Renderer δ ε) : Prop where
  gUseSpuOpus : r.gUseSpuOpus = true
  bridge : r.bridge.Ready

structure OnHost (r : Renderer δ ε) : Prop where
  gUseSpuOpus : r.gUseSpuOpus = false
  opusDecoder : r.opusDecoder.isSome = true

section

variable (codecs : Codecs packets δ ε) {r : Renderer δ ε}

/- As many floats reach the ring as there are samples for both channels. -/
theorem length_take_pcm {α : Type} {pcm : List α} {count : Int}
    (h : 0 ≤ count → (pcm.length : Int) = audioChannels * count)
    (hcount : 0 ≤ count)
    : (pcm.take (count.toNat * audioChannels)).length = count.toNat * audioChannels := by
  have hlength := h hcount
  unfold audioChannels at *
  rw [List.length_take]
  omega

/- Every call on the SPU pushes what fits into a frame of 20 ms of the packet that was sent. -/
theorem decodeAndPlaySample_onSpu (c : Delivery) (hr : r.OnSpu)
    : (r.decodeAndPlaySample codecs c).fst.OnSpu
        ∧ (r.decodeAndPlaySample codecs c).snd.length
          = packets.samples SpuOpus.spuOpusMaxSamples c.call.sent * audioChannels := by
  obtain ⟨decoder, hdecoder⟩ := Option.isSome_iff_exists.mp hr.bridge.gMsDecoder
  let d := codecs.spu.spuDecoder codecs.spuInit
  have hready : (r.bridge.decodeFloat d c.elapsedTicks c.call).Ready := by
    apply SpuOpus.Bridge.ready_decodeFloat d c.elapsedTicks hr.bridge rfl
  have hcount : (d.decode decoder c.call.sent).snd.fst.toNat
      = packets.samples SpuOpus.spuOpusMaxSamples c.call.sent := by
    apply codecs.spu.toNat_count
  have hlength : 0 ≤ (d.decode decoder c.call.sent).snd.fst
      → ((d.decode decoder c.call.sent).snd.snd.length : Int)
        = audioChannels * (d.decode decoder c.call.sent).snd.fst := by
    apply codecs.spu.length_pcm
  unfold decodeAndPlaySample
  rw [hr.gUseSpuOpus, if_pos rfl, ← hcount]
  unfold decodeSpu
  cases Int.lt_or_le 0 (d.decode decoder c.call.sent).snd.fst with
  | inl hpos =>
    have hroom : (SpuOpus.spuOpusMaxSamples : Int) ≤ c.call.maxSamples := by
      show (960 : Int) ≤ 5760
      decide
    obtain ⟨output, hppu, hsamples, hpcm⟩ :=
      SpuOpus.Bridge.decodeFloat_ok d c.elapsedTicks hr.bridge hdecoder rfl hroom hpos
    dsimp only
    rw [hppu]
    dsimp only
    rw [hsamples, if_neg (by omega)]
    refine ⟨⟨hr.gUseSpuOpus, hready⟩, ?_⟩
    show (output.outPcm.take _).length = _
    rw [hpcm, SpuOpus.pcm16ToFloat, ← List.map_take, List.length_map, List.take_take,
      audioChannels, Nat.min_self]
    apply length_take_pcm hlength (by omega)
  | inr hfailed =>
    obtain ⟨output, hppu⟩ :=
      SpuOpus.Bridge.decodeFloat_failed d c.elapsedTicks hr.bridge hdecoder rfl hfailed
    dsimp only
    rw [hppu]
    refine ⟨⟨hr.gUseSpuOpus, hready⟩, ?_⟩
    have hzero : (d.decode decoder c.call.sent).snd.fst.toNat = 0 := by omega
    rw [hzero]
    rfl

/- Every call on the host pushes what fits into the decode buffer of the packet that was delivered. -/
theorem decodeAndPlaySample_onHost (c : Delivery) (hr : r.OnHost)
    : (r.decodeAndPlaySample codecs c).fst.OnHost
        ∧ (r.decodeAndPlaySample codecs c).snd.length
          = packets.samples maxOpusFrameSize c.call.packet * audioChannels := by
  have ⟨decoder, hdecoder⟩ := Option.isSome_iff_exists.mp hr.opusDecoder
  have hcount := codecs.host.toNat_count decoder c.call.packet maxOpusFrameSize
  have hlength := codecs.host.length_pcm decoder c.call.packet maxOpusFrameSize
  unfold decodeAndPlaySample
  rw [hr.gUseSpuOpus, if_neg (by decide), ← hcount]
  unfold decodeHost
  rw [hdecoder]
  dsimp only
  cases Int.lt_or_le (codecs.host.decode decoder c.call.packet maxOpusFrameSize).snd.fst 0 with
  | inl hfailed =>
    rw [if_pos hfailed]
    refine ⟨⟨hr.gUseSpuOpus, rfl⟩, ?_⟩
    have hzero : (codecs.host.decode decoder c.call.packet maxOpusFrameSize).snd.fst.toNat = 0 := by
      omega
    rw [hzero]
    rfl
  | inr hcount =>
    rw [if_neg (by omega)]
    refine ⟨⟨hr.gUseSpuOpus, rfl⟩, ?_⟩
    apply length_take_pcm hlength hcount

/-
What holds of every call of a run, because of the state before it, holds of all of them.
-/
theorem pushesEach_iff (inv : Renderer δ ε → Prop) (count : Delivery → Nat) (n : Nat)
    (hstep : ∀ r c, inv r → inv (r.decodeAndPlaySample codecs c).fst
      ∧ (r.decodeAndPlaySample codecs c).snd.length = count c * audioChannels)
    (deliveries : List Delivery) (hr : inv r)
    : r.PushesEach codecs deliveries n ↔ ∀ c, c ∈ deliveries → count c = n := by
  unfold PushesEach pushed
  induction deliveries generalizing r with
  | nil => simp [Transition.trace]
  | cons c deliveries ih =>
    obtain ⟨hinv, hlength⟩ := hstep r c hr
    rw [Transition.trace_cons]
    simp only [List.forall_mem_cons, ih hinv, hlength]
    apply and_congr_left'
    unfold audioChannels
    omega

theorem pushesEach_onSpu {n : Nat} (deliveries : List Delivery) (hr : r.OnSpu)
    : r.PushesEach codecs deliveries n
        ↔ ∀ c, c ∈ deliveries → packets.samples SpuOpus.spuOpusMaxSamples c.call.sent = n := by
  apply pushesEach_iff codecs OnSpu _ _ _ deliveries hr
  intro r c hr
  apply decodeAndPlaySample_onSpu codecs c hr

theorem pushesEach_onHost {n : Nat} (deliveries : List Delivery) (hr : r.OnHost)
    : r.PushesEach codecs deliveries n
        ↔ ∀ c, c ∈ deliveries → packets.samples maxOpusFrameSize c.call.packet = n := by
  apply pushesEach_iff codecs OnHost _ _ _ deliveries hr
  intro r c hr
  apply decodeAndPlaySample_onHost codecs c hr

end

end Renderer

def maxPacketSize : Nat := 1400

namespace Delivery

/- A packet of the stream, or the notification that one was lost. -/
def InStream (packets : Packets) (samplesPerFrame : Nat) (c : Delivery) : Prop :=
  (c.data = none ∧ c.length = 0)
    ∨
  ∃ packet, c.call.packet = some packet ∧ packet.length ≤ maxPacketSize
    ∧ packets.duration packet = some samplesPerFrame

/-
A packet for a frame of at most 20 ms that still is one when it is cut off behind 1024 bytes.
-/
def FitsSpu (packets : Packets) (samplesPerFrame : Nat) (c : Delivery) : Prop :=
  samplesPerFrame ≤ SpuOpus.spuOpusMaxSamples
    ∧ ∃ packet, c.call.packet = some packet
      ∧ packets.duration (packet.take SpuOpus.spuOpusMaxPacketLen) = some samplesPerFrame

/- What the worker gets is the beginning of the packet. -/
theorem sent_eq (c : Delivery)
    : c.call.sent = c.call.packet.map fun packet => packet.take SpuOpus.spuOpusMaxPacketLen := by
  have hopusData : c.call.opusData = c.data := rfl
  have hopusLen : c.call.opusLen = c.length := rfl
  unfold SpuOpus.DecodeCall.sent SpuOpus.DecodeCall.packet SpuOpus.DecodeCall.bytes
    SpuOpus.DecodeCall.inLen
  rw [hopusData, hopusLen]
  cases c.data with
  | none => simp
  | some data =>
    cases Nat.eq_zero_or_pos c.length with
    | inl hzero => simp [hzero]
    | inr hpos =>
      simp [hpos, SpuOpus.spuOpusMaxPacketLen, List.take_take, Nat.min_comm]

/- A decoded packet has its own duration, so the frame has room for it. -/
theorem duration_of_samples {frameSize samplesPerFrame : Nat} {packet : List UInt8}
    (hpos : 0 < samplesPerFrame)
    (h : packets.samples frameSize (some packet) = samplesPerFrame)
    : samplesPerFrame ≤ frameSize ∧ packets.duration packet = some samplesPerFrame := by
  unfold Packets.samples at h
  dsimp only at h
  split at h
  . omega
  . next samples hsamples =>
    split at h
    . next hle =>
      rw [← h]
      exact ⟨hle, hsamples⟩
    . omega

theorem samples_of_duration {frameSize samplesPerFrame : Nat} {packet : List UInt8}
    (hle : samplesPerFrame ≤ frameSize) (h : packets.duration packet = some samplesPerFrame)
    : packets.samples frameSize (some packet) = samplesPerFrame := by
  unfold Packets.samples
  dsimp only
  rw [h]
  dsimp only
  rw [if_pos hle]

theorem samples_iff_fitsSpu {samplesPerFrame : Nat} {c : Delivery}
    (hstream : c.InStream packets samplesPerFrame)
    : (packets.samples SpuOpus.spuOpusMaxSamples c.call.sent = samplesPerFrame
          ∧ packets.samples maxOpusFrameSize c.call.packet = samplesPerFrame)
        ↔ c.FitsSpu packets samplesPerFrame := by
  rw [sent_eq]
  unfold FitsSpu
  cases hstream with
  | inl hlost =>
    -- the frame sizes of the two paths differ
    have hpacket : c.call.packet = none := by
      have hopusData : c.call.opusData = none := hlost.left
      unfold SpuOpus.DecodeCall.packet
      rw [hopusData]
    rw [hpacket]
    constructor
    . intro h
      have hspu : SpuOpus.spuOpusMaxSamples = samplesPerFrame := h.left
      have hhost : maxOpusFrameSize = samplesPerFrame := h.right
      rw [← hspu] at hhost
      contradiction
    . intro h
      have ⟨_, packet, hpacket, _⟩ := h
      contradiction
  | inr hvalid =>
    have ⟨packet, hpacket, _, hduration⟩ := hvalid
    have hpos := packets.duration_pos packet samplesPerFrame hduration
    rw [hpacket, Option.map_some]
    constructor
    . intro h
      have ⟨hle, hcut⟩ := duration_of_samples hpos h.left
      exact ⟨hle, packet, rfl, hcut⟩
    . intro h
      have ⟨hle, packet', hsame, hcut⟩ := h
      injection hsame with hsame
      rw [← hsame] at hcut
      have hroom : samplesPerFrame ≤ maxOpusFrameSize := Nat.le_trans hle (by decide)
      exact ⟨samples_of_duration hle hcut, samples_of_duration hroom hduration⟩

end Delivery

/-
Both paths push exactly the samples of a frame for each call of a stream, if and only if no packet is
lost and each packet fits: into a frame of 20 ms, and without its end behind 1024 bytes.
-/
theorem paths_agree_iff (codecs : Codecs packets δ ε) (accelerated fallback : Renderer δ ε)
    (samplesPerFrame : Nat) (deliveries : List Delivery) (haccelerated : accelerated.OnSpu)
    (hfallback : fallback.OnHost)
    (hstream : ∀ c, c ∈ deliveries → c.InStream packets samplesPerFrame)
    : (accelerated.PushesEach codecs deliveries samplesPerFrame
          ∧ fallback.PushesEach codecs deliveries samplesPerFrame)
        ↔ ∀ c, c ∈ deliveries → c.FitsSpu packets samplesPerFrame := by
  rw [Renderer.pushesEach_onSpu codecs deliveries haccelerated,
    Renderer.pushesEach_onHost codecs deliveries hfallback]
  constructor
  . intro h c hc
    apply (Delivery.samples_iff_fitsSpu (hstream c hc)).mp
    exact ⟨h.left c hc, h.right c hc⟩
  . intro h
    constructor
    . intro c hc
      exact ((Delivery.samples_iff_fitsSpu (hstream c hc)).mpr (h c hc)).left
    . intro c hc
      exact ((Delivery.samples_iff_fitsSpu (hstream c hc)).mpr (h c hc)).right

/- A stream of packets for five milliseconds without payload, nothing else is a packet. -/
def emptyPackets : Packets where
  duration packet := if packet = [0xEC] then some 240 else none
  duration_pos := by
    intro packet samples h
    split at h
    . injection h with h
      omega
    . contradiction

/- Their decoder, which is silent. -/
def silentOpus {α : Type} (zero : α) : Opus emptyPackets Unit α where
  decode _ packet frameSize :=
    match packet with
    | none => ⟨(), frameSize, List.replicate (frameSize * 2) zero⟩
    | some packet =>
      if packet = [0xEC] then
        if 240 ≤ frameSize then ⟨(), 240, List.replicate 480 zero⟩ else ⟨(), -2, []⟩
      else
        ⟨(), -4, []⟩
  lost _ _ := rfl
  valid := by
    intro _ packet frameSize samples h hle
    unfold emptyPackets at h
    dsimp only at h ⊢
    split at h
    . next hpacket =>
      injection h with h
      rw [if_pos hpacket, if_pos (by omega), ← h]
      rfl
    . contradiction
  tooLong := by
    intro _ packet frameSize samples h hlong
    unfold emptyPackets at h
    dsimp only at h ⊢
    split at h
    . next hpacket =>
      injection h with h
      rw [if_pos hpacket, if_neg (by omega)]
      show (-2 : Int) < 0
      decide
    . contradiction
  invalid := by
    intro _ packet frameSize h
    unfold emptyPackets at h
    dsimp only at h ⊢
    split at h
    . contradiction
    . next hpacket =>
      rw [if_neg hpacket]
      show (-4 : Int) < 0
      decide
  length_pcm := by
    intro _ packet frameSize h
    unfold audioChannels
    cases packet with
    | none =>
      dsimp only
      rw [List.length_replicate]
      omega
    | some packet =>
      dsimp only at h ⊢
      split at h
      . next hpacket =>
        split at h
        . next hle =>
          rw [if_pos hpacket, if_pos hle, List.length_replicate]
          rfl
        . contradiction
      . contradiction

def silentCodecs : Codecs emptyPackets Unit Unit where
  spu := silentOpus 0
  spuInit _ _ := ⟨(), true⟩
  host := silentOpus 0

/- The renderer behind its initialisation. -/
def silentRenderer (gUseSpuOpus : Bool) : Renderer Unit Unit where
  gUseSpuOpus := gUseSpuOpus
  bridge := { SpuOpus.freshBridge with gInitialized := true, ppu := .ready, gMsDecoder := some () }
  opusDecoder := if gUseSpuOpus then none else some ()
  rb := PcmRing.init fun _ => 0
  audioDecodedPacketsCount := 0

theorem silentRenderer_onSpu : (silentRenderer true).OnSpu := by
  exact ⟨rfl, ⟨rfl, rfl, rfl, rfl, rfl⟩⟩

theorem silentRenderer_onHost : (silentRenderer false).OnHost := by
  exact ⟨rfl, rfl⟩

def emptyPacket : Delivery where
  data := some [0xEC]
  length := 1
  elapsedTicks := 0
  enough := by decide

def lostPacket : Delivery where
  data := none
  length := 0
  elapsedTicks := 0
  enough := by decide

theorem paths_agree_iff_two_packets
    : (silentRenderer true).PushesEach silentCodecs [emptyPacket, emptyPacket] 240
        ∧ (silentRenderer false).PushesEach silentCodecs [emptyPacket, emptyPacket] 240 := by
  have hmem : ∀ c, c ∈ [emptyPacket, emptyPacket] → c = emptyPacket := by simp
  apply (paths_agree_iff silentCodecs (silentRenderer true) (silentRenderer false) 240
    [emptyPacket, emptyPacket] silentRenderer_onSpu silentRenderer_onHost _).mpr
  . intro c hc
    rw [hmem c hc]
    exact ⟨by decide, [0xEC], rfl, rfl⟩
  . intro c hc
    rw [hmem c hc]
    exact Or.inr ⟨[0xEC], rfl, by decide, rfl⟩

/-
For a lost packet of five milliseconds the SPU makes up 20 ms and the host 120 ms.
-/
theorem lost_packet_disagrees
    : ¬ ∀ (packets : Packets) (δ ε : Type) (codecs : Codecs packets δ ε)
          (accelerated fallback : Renderer δ ε) (samplesPerFrame : Nat) (deliveries : List Delivery),
        accelerated.OnSpu → fallback.OnHost
          → (∀ c, c ∈ deliveries → c.InStream packets samplesPerFrame)
          → accelerated.PushesEach codecs deliveries samplesPerFrame
            ∧ fallback.PushesEach codecs deliveries samplesPerFrame := by
  intro hclaim
  have hstream : ∀ c, c ∈ [lostPacket] → c.InStream emptyPackets 240 := by
    intro c hc
    rw [List.mem_singleton.mp hc]
    exact Or.inl ⟨rfl, rfl⟩
  have ⟨hspu, _⟩ := hclaim emptyPackets Unit Unit silentCodecs (silentRenderer true)
    (silentRenderer false) 240 [lostPacket] silentRenderer_onSpu silentRenderer_onHost hstream
  rw [Renderer.pushesEach_onSpu silentCodecs _ silentRenderer_onSpu] at hspu
  have hsamples : (960 : Nat) = 240 := hspu lostPacket (List.mem_singleton.mpr rfl)
  contradiction

end Audio
