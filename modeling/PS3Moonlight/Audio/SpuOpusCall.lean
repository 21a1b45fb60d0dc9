import PS3Moonlight.Audio.SpuOpusMatching

/-!
This module contains a call of `spu_opus_decode_float` as a whole, for a worker that answers before the
PPU gives up: what it returns, and the run of the two parties that it stands for.
-/

namespace Audio
namespace SpuOpus

variable {δ : Type}

namespace Bridge

/- The packet and the request for it are stored, and the worker is signalled. -/
def request (s : Bridge δ) (call : DecodeCall) : Bridge δ :=
  { s with
    gBounceOpus := if 0 < call.inLen then overlay call.bytes s.gBounceOpus else s.gBounceOpus
    gCmd :=
      { s.gCmd with
        cmd := .decode
        status := .busy
        opusLen := call.inLen
        eaOpusIn := .bounce
        eaPcmOut := .bounce }
    signal1 := some .decode
    ppu := .polling call }

def fetch (s : Bridge δ) : Bridge δ :=
  { s with signal1 := none, lsCmd := s.gCmd, spu := .dispatching }

/- The packet is transferred if there is one. -/
def receive (s : Bridge δ) : Bridge δ :=
  if s.spu = .gettingPacket then s.getPacket else s

def decodeReceived (d : Decoder δ) (s : Bridge δ) : Bridge δ :=
  match s.spu, s.gMsDecoder with
  | .decoding, some decoder => s.decodeFrame d decoder
  | _, _ => s

def putDecoded (s : Bridge δ) : Bridge δ :=
  match s.spu with
  | .puttingPcm decoded => s.putPcm decoded
  | _ => s

def putCmd (s : Bridge δ) (ticks : UInt32) : Bridge δ :=
  { s with
    lsCmd := { s.lsCmd with elapsedTicks := ticks }
    gCmd := { s.lsCmd with elapsedTicks := ticks }
    spu := .waiting }

/- One round of the worker's loop. -/
def serve (d : Decoder δ) (ticks : UInt32) (s : Bridge δ) : Bridge δ :=
  (((s.fetch.dispatch d).receive.decodeReceived d).putDecoded).putCmd ticks

/- The answer is copied out, and the call returns. -/
def finish (s : Bridge δ) (call : DecodeCall) : Bridge δ :=
  { s with
    gLastElapsed := s.gCmd.elapsedTicks
    ppu :=
      .returned call (if s.gCmd.status = .ok then .ok else .failed)
        (some (s.copyOut (min s.gCmd.decodedSamples call.maxSamples))) }

def decodeFloat (d : Decoder δ) (ticks : UInt32) (s : Bridge δ) (call : DecodeCall) : Bridge δ :=
  if !s.gInitialized || !call.hasOutput then
    { s with ppu := .returned call .einval none }
  else
    ((s.request call).serve d ticks).finish call

/- Between two calls the worker waits, and its decoder is there. -/
structure Ready (s : Bridge δ) : Prop where
  gInitialized : s.gInitialized = true
  spu : s.spu = .waiting
  signal1 : s.signal1 = none
  atRest : s.ppu.atRest = true
  gMsDecoder : s.gMsDecoder.isSome = true

/- The worker has the packet, and the decoder is about to be called with it. -/
structure Loaded (s : Bridge δ) (call : DecodeCall) (decoder : δ) : Prop where
  ppu : s.ppu = .polling call
  spu : s.spu = .decoding
  signal1 : s.signal1 = none
  gInitialized : s.gInitialized = true
  gMsDecoder : s.gMsDecoder = some decoder
  eaPcmOut : s.lsCmd.eaPcmOut = .bounce
  decoderInput : s.decoderInput = call.sent

theorem request_request (s : Bridge δ) (call : DecodeCall) : Request (s.request call).gCmd call := by
  exact ⟨rfl, rfl, rfl, rfl, rfl⟩

theorem prefix_request (s : Bridge δ) {call : DecodeCall} (h : 0 < call.inLen)
    : call.bytes <+: (s.request call).gBounceOpus := by
  unfold request
  rw [if_pos h]
  apply isPrefix_overlay

theorem loaded_receive {s : Bridge δ} {decoder : δ} (d : Decoder δ) (call : DecodeCall)
    (hinitialized : s.gInitialized = true) (hdecoder : s.gMsDecoder = some decoder)
    : Loaded (((s.request call).fetch.dispatch d).receive) call decoder := by
  have hrequest : Request (s.request call).fetch.lsCmd call := request_request s call
  have hdispatch : (s.request call).fetch.dispatch d = (s.request call).fetch.startDecode := by
    have hsome : (s.request call).fetch.gMsDecoder = some decoder := hdecoder
    unfold dispatch
    rw [hrequest.cmd]
    dsimp only
    rw [hsome]
  rw [hdispatch]
  unfold startDecode
  rw [hrequest.inBytes, hrequest.eaOpusIn]
  cases Nat.eq_zero_or_pos call.inLen with
  | inl hzero =>
    rw [if_neg (by omega)]
    refine ⟨rfl, rfl, rfl, hinitialized, hdecoder, rfl, ?_⟩
    apply decoderInput_eq_sent hrequest
    have hempty : call.bytes = [] := by
      apply List.eq_nil_of_length_eq_zero
      rw [call.length_bytes, hzero]
    rw [hempty]
    apply List.nil_prefix
  | inr hpos =>
    rw [if_pos ⟨hpos, by decide⟩]
    refine ⟨rfl, rfl, rfl, hinitialized, hdecoder, rfl, ?_⟩
    apply decoderInput_eq_sent
    . exact hrequest
    . apply prefix_getPacket hrequest (prefix_request s hpos)

/- What one round of the worker leaves for a call: the decoder's answer to what was sent. -/
structure Answered (d : Decoder δ) (s : Bridge δ) (call : DecodeCall) (decoder : δ) : Prop where
  ppu : s.ppu = .polling call
  spu : s.spu = .waiting
  signal1 : s.signal1 = none
  gInitialized : s.gInitialized = true
  gMsDecoder : s.gMsDecoder = some (d.decode decoder call.sent).fst
  decoded : 0 < (d.decode decoder call.sent).snd.fst
    → s.gCmd.status = .ok ∧ (s.gCmd.decodedSamples : Int) = (d.decode decoder call.sent).snd.fst
      ∧ pcm16ToFloat (d.decode decoder call.sent).snd.snd (s.gCmd.decodedSamples * 2) <+: s.gBouncePcm
  failed : (d.decode decoder call.sent).snd.fst ≤ 0 → s.gCmd.status = .err

theorem serve_answered {s : Bridge δ} {decoder : δ} (d : Decoder δ) (ticks : UInt32)
    (call : DecodeCall) (hinitialized : s.gInitialized = true) (hdecoder : s.gMsDecoder = some decoder)
    : Answered d ((s.request call).serve d ticks) call decoder := by
  have hloaded := loaded_receive d call hinitialized hdecoder
  unfold serve
  generalize ((s.request call).fetch.dispatch d).receive = loaded at hloaded
  have hle := d.count_le decoder call.sent
  have hpcm := d.length_pcm decoder call.sent
  unfold decodeReceived
  rw [hloaded.spu, hloaded.gMsDecoder]
  dsimp only
  unfold decodeFrame
  rw [hloaded.decoderInput]
  cases Int.lt_or_le 0 (d.decode decoder call.sent).snd.fst with
  | inl hpos =>
    dsimp only
    rw [if_pos hpos]
    have hcount : ((d.decode decoder call.sent).snd.fst.toNat : Int)
        = (d.decode decoder call.sent).snd.fst := by
      omega
    have htotal : totalSamples (d.decode decoder call.sent).snd.fst.toNat
        = (d.decode decoder call.sent).snd.fst.toNat * 2 := by
      unfold totalSamples spuOpusMaxSamples maxChannels
      unfold spuOpusMaxSamples at hle
      omega
    refine ⟨hloaded.ppu, rfl, hloaded.signal1, hloaded.gInitialized, rfl, ?_, ?_⟩
    . intro _
      refine ⟨rfl, hcount, ?_⟩
      apply prefix_putPcm
      . exact hloaded.eaPcmOut
      . omega
      . apply length_pcm16ToFloat_le
      . rw [htotal]
        apply isPrefix_overlay
    . intro hfailed
      omega
  | inr hfailed =>
    dsimp only
    rw [if_neg (by omega)]
    refine ⟨hloaded.ppu, rfl, hloaded.signal1, hloaded.gInitialized, rfl, ?_, ?_⟩
    . intro hpos
      omega
    . intro _
      rfl

section

variable {s : Bridge δ} {decoder : δ} {call : DecodeCall}

theorem decodeFloat_eq (d : Decoder δ) (ticks : UInt32) (hs : Ready s)
    (houtput : call.hasOutput = true)
    : s.decodeFloat d ticks call = ((s.request call).serve d ticks).finish call := by
  unfold decodeFloat
  rw [hs.gInitialized, houtput]
  rfl

theorem ready_decodeFloat (d : Decoder δ) (ticks : UInt32) (hs : Ready s)
    (houtput : call.hasOutput = true)
    : Ready (s.decodeFloat d ticks call) := by
  have ⟨decoder, hdecoder⟩ := Option.isSome_iff_exists.mp hs.gMsDecoder
  have h := serve_answered d ticks call hs.gInitialized hdecoder
  rw [decodeFloat_eq d ticks hs houtput]
  refine ⟨h.gInitialized, h.spu, h.signal1, rfl, ?_⟩
  apply Option.isSome_iff_exists.mpr
  exact ⟨_, h.gMsDecoder⟩

/- A call between two others returns what the decoder makes of the packet that was sent. -/
theorem decodeFloat_ok (d : Decoder δ) (ticks : UInt32) (hs : Ready s)
    (hdecoder : s.gMsDecoder = some decoder) (houtput : call.hasOutput = true)
    (hroom : spuOpusMaxSamples ≤ call.maxSamples)
    (hpos : 0 < (d.decode decoder call.sent).snd.fst)
    : ∃ output, (s.decodeFloat d ticks call).ppu = .returned call .ok (some output)
        ∧ output.outSamples = (d.decode decoder call.sent).snd.fst
        ∧ output.outPcm = pcm16ToFloat (d.decode decoder call.sent).snd.snd
          ((d.decode decoder call.sent).snd.fst.toNat * 2) := by
  have hle := d.count_le decoder call.sent
  have hpcm := d.length_pcm decoder call.sent
  have h := serve_answered d ticks call hs.gInitialized hdecoder
  have ⟨hstatus, hcount, hbegin⟩ := h.decoded hpos
  rw [decodeFloat_eq d ticks hs houtput]
  generalize (s.request call).serve d ticks = served at *
  have hmin : min (served.gCmd.decodedSamples : Int) call.maxSamples
      = (d.decode decoder call.sent).snd.fst := by
    omega
  unfold finish copyOut
  rw [hstatus, hmin, if_pos hpos]
  refine ⟨_, rfl, rfl, ?_⟩
  have hlength : (pcm16ToFloat (d.decode decoder call.sent).snd.snd
      (served.gCmd.decodedSamples * 2)).length = served.gCmd.decodedSamples * 2 := by
    unfold maxChannels at hpcm
    unfold pcm16ToFloat
    rw [List.length_map, List.length_take]
    omega
  have htake := List.prefix_iff_eq_take.mp hbegin
  rw [hlength] at htake
  have hnat : (d.decode decoder call.sent).snd.fst.toNat = served.gCmd.decodedSamples := by omega
  rw [hnat, htake]

theorem decodeFloat_failed (d : Decoder δ) (ticks : UInt32) (hs : Ready s)
    (hdecoder : s.gMsDecoder = some decoder) (houtput : call.hasOutput = true)
    (hfailed : (d.decode decoder call.sent).snd.fst ≤ 0)
    : ∃ output, (s.decodeFloat d ticks call).ppu = .returned call .failed output := by
  have h := serve_answered d ticks call hs.gInitialized hdecoder
  rw [decodeFloat_eq d ticks hs houtput]
  unfold finish
  rw [h.failed hfailed]
  exact ⟨_, rfl⟩

/-
The two parties do the same, if the worker answers before the PPU gives up.
-/

/- Neither has the time passed nor does another call begin. -/
def InTime (ticks : UInt32) (e : Event) : Prop :=
  match e with
  | .ppu timeout => timeout = false
  | .spu t => t = ticks
  | _ => False

/- The parties get from one state to the other in time. -/
def Leads (d : Decoder δ) (ticks : UInt32) (s t : Bridge δ) : Prop :=
  ∃ events, (∀ e, e ∈ events → InTime ticks e)
    ∧ ∀ sampleRate channels start,
      (machine d sampleRate channels start).runFrom s events = some t

theorem Leads.trans {d : Decoder δ} {ticks : UInt32} {s t u : Bridge δ} (hst : Leads d ticks s t)
    (htu : Leads d ticks t u)
    : Leads d ticks s u := by
  have ⟨first, hfirst, hrunFirst⟩ := hst
  have ⟨second, hsecond, hrunSecond⟩ := htu
  refine ⟨first ++ second, ?_, ?_⟩
  . intro e he
    cases List.mem_append.mp he with
    | inl he => exact hfirst e he
    | inr he => exact hsecond e he
  . intro sampleRate channels start
    rw [Transition.Machine.runFrom_append, hrunFirst, Option.bind_some, hrunSecond]

theorem leads_refl (d : Decoder δ) (ticks : UInt32) (s : Bridge δ) : Leads d ticks s s := by
  exact ⟨[], by simp, fun _ _ _ => rfl⟩

theorem leads_spu {d : Decoder δ} {ticks : UInt32} {s t : Bridge δ}
    (h : s.spuStep d ticks = some t)
    : Leads d ticks s t := by
  refine ⟨[.spu ticks], by simp [InTime], ?_⟩
  intro sampleRate channels start
  simp [Transition.Machine.runFrom_cons, machine, step, h]

theorem leads_request (d : Decoder δ) (ticks : UInt32) (s : Bridge δ) (call : DecodeCall)
    : Leads d ticks { s with ppu := .copyingIn call } (s.request call) := by
  refine ⟨List.replicate 7 (.ppu false), by simp [InTime], ?_⟩
  intro sampleRate channels start
  unfold request
  split
  . next hpos =>
    simp [Transition.Machine.runFrom_cons, machine, step, ppuStep, storeDecode, hpos, List.replicate]
  . next hzero =>
    simp [Transition.Machine.runFrom_cons, machine, step, ppuStep, storeDecode, hzero, List.replicate]

theorem leads_serve {s : Bridge δ} (d : Decoder δ) (ticks : UInt32) (call : DecodeCall) (hs : Ready s)
    : Leads d ticks (s.request call) ((s.request call).serve d ticks) := by
  have ⟨decoder, hdecoder⟩ := Option.isSome_iff_exists.mp hs.gMsDecoder
  have hloaded := loaded_receive d call hs.gInitialized hdecoder
  -- one lemma for each statement of the round, two of them are left out for some packets
  have hfetch : Leads d ticks (s.request call) (s.request call).fetch := by
    apply Leads.trans (t := { s.request call with signal1 := none, spu := .fetching })
    . apply leads_spu
      have hspu : (s.request call).spu = .waiting := hs.spu
      unfold spuStep
      rw [hspu]
      rfl
    . apply leads_spu
      rfl
  have hdispatch : Leads d ticks (s.request call).fetch ((s.request call).fetch.dispatch d) := by
    apply leads_spu
    rfl
  have hreceive : Leads d ticks ((s.request call).fetch.dispatch d)
      ((s.request call).fetch.dispatch d).receive := by
    unfold receive
    split
    . next hspu =>
      apply leads_spu
      simp [spuStep, hspu]
    . apply leads_refl
  unfold serve
  generalize ((s.request call).fetch.dispatch d).receive = loaded at *
  have hdecode : Leads d ticks loaded (loaded.decodeReceived d) := by
    apply leads_spu
    unfold spuStep decodeReceived
    rw [hloaded.spu, hloaded.gMsDecoder]
  have hput : Leads d ticks (loaded.decodeReceived d) (loaded.decodeReceived d).putDecoded := by
    unfold putDecoded
    split
    . next decoded hspu =>
      apply leads_spu
      simp [spuStep, hspu]
    . apply leads_refl
  have hputting : (loaded.decodeReceived d).putDecoded.spu = .puttingCmd := by
    unfold decodeReceived
    rw [hloaded.spu, hloaded.gMsDecoder]
    dsimp only
    unfold decodeFrame
    dsimp only
    split
    . rfl
    . rfl
  have hputCmd : Leads d ticks (loaded.decodeReceived d).putDecoded
      ((loaded.decodeReceived d).putDecoded.putCmd ticks) := by
    apply leads_spu
    simp [spuStep, hputting, putCmd]
  apply hfetch.trans (hdispatch.trans (hreceive.trans (hdecode.trans (hput.trans hputCmd))))

theorem leads_finish (d : Decoder δ) (ticks : UInt32) {s : Bridge δ} (call : DecodeCall)
    (hppu : s.ppu = .polling call) (hstatus : s.gCmd.status ≠ .busy)
    : Leads d ticks s (s.finish call) := by
  refine ⟨List.replicate 5 (.ppu false), by simp [InTime], ?_⟩
  intro sampleRate channels start
  simp [Transition.Machine.runFrom_cons, machine, step, ppuStep, hppu, hstatus, List.replicate, finish,
    copyOut]

/- A call as a whole is a run of the two parties in which the worker answers in time. -/
theorem decodeFloat_leads {s : Bridge δ} (d : Decoder δ) (ticks : UInt32) {call : DecodeCall}
    (hs : Ready s) (houtput : call.hasOutput = true)
    : Leads d ticks (s.callDecode call) (s.decodeFloat d ticks call) := by
  have ⟨decoder, hdecoder⟩ := Option.isSome_iff_exists.mp hs.gMsDecoder
  have h := serve_answered d ticks call hs.gInitialized hdecoder
  have hcall : s.callDecode call = { s with ppu := .copyingIn call } := by
    unfold callDecode
    rw [hs.gInitialized, houtput]
    rfl
  have hstatus : ((s.request call).serve d ticks).gCmd.status ≠ .busy := by
    cases Int.lt_or_le 0 (d.decode decoder call.sent).snd.fst with
    | inl hpos =>
      rw [(h.decoded hpos).left]
      decide
    | inr hfailed =>
      rw [h.failed hfailed]
      decide
  rw [hcall, decodeFloat_eq d ticks hs houtput]
  apply (leads_request d ticks s call).trans
  apply (leads_serve d ticks call hs).trans
  apply leads_finish d ticks call h.ppu hstatus

end

end Bridge
end SpuOpus
end Audio
