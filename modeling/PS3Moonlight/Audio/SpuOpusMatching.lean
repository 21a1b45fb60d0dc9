import PS3Moonlight.Audio.SpuOpus

/-!
This module contains the matching of requests and answers across the SPU Opus bridge. The decoder's
invocations since the last call began are a history variable. A call that finds the worker idle gets
the samples of its own packet, a call after one that was given up may get those of an earlier packet.
-/

namespace Audio
namespace SpuOpus

variable {δ : Type}

structure Invocation where
  packet : Option (List UInt8)
  count : Int
  pcm : List Int16

def note (d : Decoder δ) (s : Bridge δ) (e : Event) (_ : Bridge δ) (history : List Invocation)
    : List Invocation :=
  match e with
  | .call _ => []
  | .spu _ =>
    match s.spu, s.gMsDecoder with
    | .decoding, some decoder =>
      let result := d.decode decoder s.decoderInput
      history ++ [⟨s.decoderInput, result.snd.fst, result.snd.snd⟩]
    | _, _ => history
  | _ => history

/-
The bridge with the decoder's invocations since the last call began.
-/
def recorded (d : Decoder δ) (sampleRate channels : UInt32) (s : Bridge δ)
    : Transition.Machine (Bridge δ × List Invocation) Event :=
  (machine d sampleRate channels s).instrument [] (note d)

/- Recording does not restrict the two parties. -/
theorem exists_record_iff (d : Decoder δ) (sampleRate channels : UInt32) (s t : Bridge δ)
    (events : List Event)
    : (∃ history, (recorded d sampleRate channels s).run events = some ⟨t, history⟩)
        ↔
      (machine d sampleRate channels s).run events = some t := by
  apply Transition.Machine.instrument_runFrom_iff

/- What a call has to deliver for an invocation, up to the samples it has room for. -/
def Invocation.output (invocation : Invocation) (maxSamples : Int) : Output where
  outSamples := min invocation.count maxSamples
  outPcm := pcm16ToFloat invocation.pcm ((min invocation.count maxSamples).toNat * 2)

/-
A call that returned 0 has delivered the decoder's output for its own packet.
-/
def Matched (s : Bridge δ) (history : List Invocation) : Prop :=
  ∀ call output, s.ppu = .returned call .ok output
    → ∃ invocation, invocation ∈ history ∧ invocation.packet = call.packet
        ∧ output = some (invocation.output call.maxSamples)

/-
A call begins with an idle worker, none of its packet has to be cut off.
-/
def Undisturbed (s : Bridge δ) (e : Event) : Prop :=
  match e with
  | .call call =>
    s.spu = .waiting ∧ s.signal1 = none
      ∧
    (call.packet.getD []).length ≤ spuOpusMaxPacketLen
  | _ => True

instance decidableUndisturbed (s : Bridge δ) (e : Event) : Decidable (Undisturbed s e) :=
  match e with
  | .call _ => inferInstanceAs (Decidable (_ ∧ _ ∧ _))
  | .ppu _ => isTrue trivial
  | .spu _ => isTrue trivial
  | .shutdown => isTrue trivial

/- The command block asks for the call's packet. -/
structure Request (block : CommandBlock) (call : DecodeCall) : Prop where
  cmd : block.cmd = .decode
  status : block.status = .busy
  opusLen : block.opusLen = call.inLen
  eaOpusIn : block.eaOpusIn = .bounce
  eaPcmOut : block.eaPcmOut = .bounce

/- The only invocation is the one for the call's packet, and the floats begin with its samples. -/
def Decoded (call : DecodeCall) (history : List Invocation) (count : Nat) (floats : List Rat)
    : Prop :=
  ∃ invocation, history = [invocation] ∧ invocation.packet = call.packet
    ∧ invocation.count = count ∧ invocation.pcm.length = count * 2
    ∧ pcm16ToFloat invocation.pcm (count * 2) <+: floats

/- The command block carries the answer to the call, which may be an error. -/
def Answer (block : CommandBlock) (call : DecodeCall) (history : List Invocation)
    (floats : List Rat) : Prop :=
  block.status = .ok → Decoded call history block.decodedSamples floats

/-
The worker on its way from the signal to the answer.
-/
def Serving (s : Bridge δ) (call : DecodeCall) (history : List Invocation) : Prop :=
  match s.spu with
  | .waiting =>
    s.signal1.isSome = true ∧ Request s.gCmd call ∧ call.bytes <+: s.gBounceOpus ∧ history = []
      ∨
    s.signal1 = none ∧ s.gCmd.status ≠ .busy ∧ Answer s.gCmd call history s.gBouncePcm
  | .fetching =>
    s.signal1 = none ∧ Request s.gCmd call ∧ call.bytes <+: s.gBounceOpus ∧ history = []
  | .dispatching =>
    s.signal1 = none ∧ s.gCmd.status = .busy ∧ Request s.lsCmd call
      ∧ call.bytes <+: s.gBounceOpus ∧ history = []
  | .gettingPacket =>
    s.signal1 = none ∧ s.gCmd.status = .busy ∧ Request s.lsCmd call
      ∧ call.bytes <+: s.gBounceOpus ∧ history = []
  | .decoding =>
    s.signal1 = none ∧ s.gCmd.status = .busy ∧ Request s.lsCmd call
      ∧ call.bytes <+: s.lsOpusIn ∧ history = []
  | .puttingPcm decoded =>
    s.signal1 = none ∧ s.gCmd.status = .busy ∧ s.lsCmd.eaPcmOut = .bounce
      ∧ Decoded call history decoded s.lsPcmFloat ∧ decoded ≤ spuOpusMaxSamples
  | .puttingCmd =>
    s.signal1 = none ∧ s.gCmd.status = .busy ∧ s.lsCmd.status ≠ .busy
      ∧ Answer s.lsCmd call history s.gBouncePcm
  | .quitting => False
  | .exited => False

/- The worker is done with the call and waits for the next one. -/
def Served (s : Bridge δ) (call : DecodeCall) (history : List Invocation) : Prop :=
  s.spu = .waiting ∧ s.signal1 = none ∧ Answer s.gCmd call history s.gBouncePcm

/- No call is being served, the PPU has the block and the buffers for itself. -/
def Quiet (s : Bridge δ) (history : List Invocation) : Prop :=
  s.spu = .waiting ∧ s.signal1 = none ∧ history = []

/-
What the PPU knows about the worker at each of its statements, once a call has begun undisturbed.
-/
def Inv (s : Bridge δ) (history : List Invocation) : Prop :=
  match s.ppu with
  | .copyingIn call => Quiet s history ∧ (call.packet.getD []).length ≤ spuOpusMaxPacketLen
  | .storing call stores =>
    Quiet s history ∧ (call.packet.getD []).length ≤ spuOpusMaxPacketLen
      ∧ call.bytes <+: s.gBounceOpus
      ∧ (0 < stores → s.gCmd.cmd = .decode) ∧ (1 < stores → s.gCmd.status = .busy)
      ∧ (2 < stores → s.gCmd.opusLen = call.inLen) ∧ (3 < stores → s.gCmd.eaOpusIn = .bounce)
  | .signalling call =>
    Quiet s history ∧ (call.packet.getD []).length ≤ spuOpusMaxPacketLen
      ∧ call.bytes <+: s.gBounceOpus ∧ Request s.gCmd call
  | .polling call =>
    (call.packet.getD []).length ≤ spuOpusMaxPacketLen ∧ Serving s call history
  | .checking call =>
    (call.packet.getD []).length ≤ spuOpusMaxPacketLen ∧ Serving s call history
  | .readingCount call => Served s call history
  | .copyingOut call decoded =>
    Served s call history ∧ decoded = min (s.gCmd.decodedSamples : Int) call.maxSamples
  | .readingTicks call output =>
    Served s call history
      ∧ output = s.copyOut (min (s.gCmd.decodedSamples : Int) call.maxSamples)
  | .readingStatus call output =>
    Served s call history
      ∧ output = s.copyOut (min (s.gCmd.decodedSamples : Int) call.maxSamples)
  | .returned _ _ _ => Matched s history
  | _ => True

theorem isPrefix_overlay {α : Type} (src dst : List α) : src <+: Bridge.overlay src dst := by
  apply List.prefix_append

namespace DecodeCall

theorem length_bytes (call : DecodeCall) : call.bytes.length = call.inLen := by
  unfold bytes
  rw [List.length_take]
  apply Nat.min_eq_left
  unfold inLen
  cases hdata : call.opusData with
  | none => simp
  | some data =>
    have := call.enough data hdata
    simp only [Option.getD_some, Option.isSome_some, Bool.true_and, decide_eq_true_eq]
    split
    . omega
    . omega

/- The packet as the worker gets it, which is no longer than the bounce buffer. -/
def sent (call : DecodeCall) : Option (List UInt8) :=
  if 0 < call.inLen then some call.bytes else none

/-
What the bounce buffer carries is the packet, unless the packet is too long for it.
-/
theorem packet_eq (call : DecodeCall)
    (hlength : (call.packet.getD []).length ≤ spuOpusMaxPacketLen)
    : call.packet = if 0 < call.inLen then some call.bytes else none := by
  unfold packet bytes inLen at *
  cases hdata : call.opusData with
  | none => simp
  | some data =>
    have henough := call.enough data hdata
    simp only [hdata, Option.getD_some, Option.isSome_some, Bool.true_and, decide_eq_true_eq]
      at hlength ⊢
    split
    . next hpositive =>
      simp only [hpositive, ↓reduceIte, Option.getD_some, List.length_take] at hlength ⊢
      rw [if_pos (by unfold spuOpusMaxPacketLen; omega)]
      rw [Nat.min_eq_left (by omega)]
    . simp

end DecodeCall

/-
The worker.
-/

theorem spuStep_ppu {d : Decoder δ} {s t : Bridge δ} {ticks : UInt32}
    (hstep : s.spuStep d ticks = some t)
    : t.ppu = s.ppu := by
  unfold Bridge.spuStep at hstep
  cases hspu : s.spu <;> simp only [hspu, Option.some.injEq, reduceCtorEq] at hstep
  case waiting =>
    split at hstep
    . simp at hstep
    . injection hstep with hstep
      rw [← hstep]
  case dispatching =>
    rw [← hstep]
    unfold Bridge.dispatch
    split
    . rfl
    . rfl
    . split
      . rfl
      . dsimp only
        split
        . rfl
        . rfl
    . rfl
  case decoding =>
    split at hstep
    . simp at hstep
    . injection hstep with hstep
      rw [← hstep]
      unfold Bridge.decodeFrame
      dsimp only
      split
      . rfl
      . rfl
  case gettingPacket =>
    rw [← hstep]
    rfl
  case puttingPcm decoded =>
    rw [← hstep]
    rfl
  all_goals rw [← hstep]

theorem spuStep_of_idle {d : Decoder δ} {s : Bridge δ} (hspu : s.spu = .waiting)
    (hsignal : s.signal1 = none) (ticks : UInt32)
    : s.spuStep d ticks = none := by
  unfold Bridge.spuStep
  rw [hspu, hsignal]

/-
The worker fetches the block with the request that the signal announced.
-/

theorem Request.inBytes {s : Bridge δ} {call : DecodeCall} (h : Request s.lsCmd call)
    : s.inBytes = call.inLen := by
  unfold Bridge.inBytes
  rw [h.opusLen]
  apply Nat.min_eq_left
  apply Nat.min_le_right

theorem le_dmaLen (bytes : Nat) : bytes ≤ Bridge.dmaLen bytes := by
  unfold Bridge.dmaLen
  omega

/- The transfer is rounded up, so the packet is part of what it copies. -/
theorem prefix_getPacket {s : Bridge δ} {call : DecodeCall} (h : Request s.lsCmd call)
    (hbytes : call.bytes <+: s.gBounceOpus)
    : call.bytes <+: s.getPacket.lsOpusIn := by
  have hlength : call.bytes.length ≤ Bridge.dmaLen s.inBytes := by
    rw [call.length_bytes, h.inBytes]
    apply le_dmaLen
  apply List.IsPrefix.trans _ (isPrefix_overlay _ _)
  exact List.prefix_take_iff.mpr ⟨hbytes, hlength⟩

/- The decoder gets what was sent, whatever stood in the buffers before. -/
theorem decoderInput_eq_sent {s : Bridge δ} {call : DecodeCall} (h : Request s.lsCmd call)
    (hbytes : call.bytes <+: s.lsOpusIn)
    : s.decoderInput = call.sent := by
  unfold Bridge.decoderInput DecodeCall.sent
  rw [h.inBytes, ← call.length_bytes, ← List.prefix_iff_eq_take.mp hbytes]

theorem decoderInput_eq {s : Bridge δ} {call : DecodeCall} (h : Request s.lsCmd call)
    (hlength : (call.packet.getD []).length ≤ spuOpusMaxPacketLen)
    (hbytes : call.bytes <+: s.lsOpusIn)
    : s.decoderInput = call.packet := by
  rw [decoderInput_eq_sent h hbytes, call.packet_eq hlength, DecodeCall.sent]

theorem serving_fail {s : Bridge δ} {call : DecodeCall} {history : List Invocation}
    (hsignal : s.signal1 = none) (hbusy : s.gCmd.status = .busy)
    : Serving s.fail call history := by
  refine ⟨hsignal, hbusy, ?_, ?_⟩
  . simp [Bridge.fail]
  . intro hok
    simp [Bridge.fail] at hok

theorem serving_startDecode {s : Bridge δ} {call : DecodeCall} {history : List Invocation}
    (hsignal : s.signal1 = none) (hbusy : s.gCmd.status = .busy) (hrequest : Request s.lsCmd call)
    (hbytes : call.bytes <+: s.gBounceOpus) (hhistory : history = [])
    : Serving s.startDecode call history := by
  unfold Bridge.startDecode
  split
  . exact ⟨hsignal, hbusy, hrequest, hbytes, hhistory⟩
  . next hnone =>
    refine ⟨hsignal, hbusy, hrequest, ?_, hhistory⟩
    have hempty : call.bytes = [] := by
      apply List.eq_nil_of_length_eq_zero
      rw [call.length_bytes, ← hrequest.inBytes]
      simp only [hrequest.eaOpusIn, ne_eq, reduceCtorEq, not_false_eq_true, and_true] at hnone
      omega
    rw [hempty]
    apply List.nil_prefix

theorem serving_dispatch {d : Decoder δ} {s : Bridge δ} {call : DecodeCall}
    {history : List Invocation} (hspu : s.spu = .dispatching) (h : Serving s call history)
    : Serving (s.dispatch d) call history := by
  unfold Serving at h
  rw [hspu] at h
  have ⟨hsignal, hbusy, hrequest, hbytes, hhistory⟩ := h
  have hstart : ∀ decoder : δ,
      Serving (Bridge.startDecode { s with gMsDecoder := some decoder }) call history := by
    intro decoder
    apply serving_startDecode hsignal hbusy hrequest hbytes hhistory
  unfold Bridge.dispatch
  rw [hrequest.cmd]
  dsimp only
  split
  . apply serving_startDecode hsignal hbusy hrequest hbytes hhistory
  . split
    . apply hstart
    . apply serving_fail hsignal hbusy

theorem serving_decodeFrame {d : Decoder δ} {s : Bridge δ} {call : DecodeCall}
    {history : List Invocation} (decoder : δ) (hspu : s.spu = .decoding)
    (hlength : (call.packet.getD []).length ≤ spuOpusMaxPacketLen)
    (h : Serving s call history)
    : Serving (s.decodeFrame d decoder) call
        (history ++ [⟨s.decoderInput, (d.decode decoder s.decoderInput).snd.fst,
          (d.decode decoder s.decoderInput).snd.snd⟩]) := by
  unfold Serving at h
  rw [hspu] at h
  have ⟨hsignal, hbusy, hrequest, hbytes, hhistory⟩ := h
  have hpacket := decoderInput_eq hrequest hlength hbytes
  have hle := d.count_le decoder s.decoderInput
  have hpcm := d.length_pcm decoder s.decoderInput
  unfold Bridge.decodeFrame
  dsimp only
  generalize hresult : d.decode decoder s.decoderInput = result at *
  split
  . next hpositive =>
    have hcount : (result.snd.fst.toNat : Int) = result.snd.fst := by omega
    have htotal : Bridge.totalSamples result.snd.fst.toNat = result.snd.fst.toNat * 2 := by
      unfold Bridge.totalSamples spuOpusMaxSamples maxChannels
      unfold spuOpusMaxSamples at hle
      omega
    refine ⟨hsignal, hbusy, hrequest.eaPcmOut, ?_, ?_⟩
    . rw [hhistory, htotal]
      refine ⟨_, rfl, hpacket, hcount.symm, ?_, ?_⟩
      . unfold maxChannels at hpcm
        dsimp only
        omega
      . apply isPrefix_overlay
    . omega
  . apply serving_fail hsignal hbusy

/- The samples are transferred to the bounce buffer, and perhaps some floats behind them. -/
theorem prefix_putPcm {s : Bridge δ} {decoded : Nat} {floats : List Rat}
    (hea : s.lsCmd.eaPcmOut = .bounce) (hle : decoded ≤ spuOpusMaxSamples)
    (hlength : floats.length ≤ decoded * 2) (hfloats : floats <+: s.lsPcmFloat)
    : floats <+: (s.putPcm decoded).gBouncePcm := by
  unfold Bridge.putPcm
  rw [hea]
  apply List.IsPrefix.trans _ (isPrefix_overlay _ _)
  rw [List.prefix_take_iff]
  refine ⟨hfloats, ?_⟩
  apply Nat.le_trans hlength
  unfold Bridge.dmaLen Bridge.totalSamples spuOpusMaxSamples maxChannels
  unfold spuOpusMaxSamples at hle
  omega

theorem length_pcm16ToFloat_le (src : List Int16) (count : Nat)
    : (pcm16ToFloat src count).length ≤ count := by
  simp only [pcm16ToFloat, List.length_map, List.length_take]
  omega

theorem serving_putPcm {s : Bridge δ} {call : DecodeCall} {history : List Invocation}
    (decoded : Nat) (hspu : s.spu = .puttingPcm decoded) (h : Serving s call history)
    : Serving (s.putPcm decoded) call history := by
  unfold Serving at h
  rw [hspu] at h
  have ⟨hsignal, hbusy, hea, hdecoded, hle⟩ := h
  refine ⟨hsignal, hbusy, ?_, ?_⟩
  . simp [Bridge.putPcm]
  . intro _
    have ⟨invocation, hhistory, hpacket, hcount, hpcm, hfloats⟩ := hdecoded
    refine ⟨invocation, hhistory, hpacket, hcount, hpcm, ?_⟩
    apply prefix_putPcm hea hle (length_pcm16ToFloat_le _ _) hfloats

/-
One statement of the worker: it brings the call closer to its answer, and the decoder is invoked for
nothing but the call's packet.
-/
theorem serving_step {d : Decoder δ} {s t : Bridge δ} {call : DecodeCall}
    {history : List Invocation} {ticks : UInt32}
    (hlength : (call.packet.getD []).length ≤ spuOpusMaxPacketLen)
    (h : Serving s call history) (hstep : s.spuStep d ticks = some t)
    : Serving t call (note d s (.spu ticks) t history) := by
  unfold Bridge.spuStep at hstep
  unfold note
  cases hspu : s.spu <;> simp only [hspu, Option.some.injEq, reduceCtorEq] at hstep ⊢
  case waiting =>
    unfold Serving at h
    rw [hspu] at h
    split at hstep
    . simp at hstep
    . next command hsignal =>
      injection hstep with hstep
      rw [← hstep]
      cases h with
      | inl hrequested => exact ⟨rfl, hrequested.right⟩
      | inr hserved => simp [hsignal] at hserved
  case fetching =>
    unfold Serving at h
    rw [hspu] at h
    rw [← hstep]
    exact ⟨h.left, h.right.left.status, h.right⟩
  case dispatching =>
    rw [← hstep]
    apply serving_dispatch hspu h
  case gettingPacket =>
    unfold Serving at h
    rw [hspu] at h
    have ⟨hsignal, hbusy, hrequest, hbytes, hhistory⟩ := h
    rw [← hstep]
    exact ⟨hsignal, hbusy, hrequest, prefix_getPacket hrequest hbytes, hhistory⟩
  case decoding =>
    split at hstep
    . simp at hstep
    . next decoder hdecoder =>
      injection hstep with hstep
      rw [← hstep, hdecoder]
      apply serving_decodeFrame decoder hspu hlength h
  case puttingPcm decoded =>
    rw [← hstep]
    apply serving_putPcm decoded hspu h
  case puttingCmd =>
    unfold Serving at h
    rw [hspu] at h
    have ⟨hsignal, _, hstatus, hanswer⟩ := h
    rw [← hstep]
    exact Or.inr ⟨hsignal, hstatus, hanswer⟩
  case quitting =>
    unfold Serving at h
    rw [hspu] at h
    contradiction

theorem matched_mono {s t : Bridge δ} {history : List Invocation} (d : Decoder δ) (ticks : UInt32)
    (hppu : t.ppu = s.ppu) (h : Matched s history)
    : Matched t (note d s (.spu ticks) t history) := by
  intro call output hreturned
  rw [hppu] at hreturned
  have ⟨invocation, hmem, hmatch⟩ := h call output hreturned
  refine ⟨invocation, ?_, hmatch⟩
  unfold note
  dsimp only
  split
  . exact List.mem_append_left _ hmem
  . exact hmem

theorem Served.answer {s : Bridge δ} {call : DecodeCall} {history : List Invocation}
    (h : Served s call history) (hok : s.gCmd.status = .ok)
    : ∃ invocation, invocation ∈ history ∧ invocation.packet = call.packet
        ∧ s.copyOut (min (s.gCmd.decodedSamples : Int) call.maxSamples)
            = invocation.output call.maxSamples := by
  have ⟨invocation, hhistory, hpacket, hcount, hpcm, hfloats⟩ := h.right.right hok
  refine ⟨invocation, by simp [hhistory], hpacket, ?_⟩
  unfold Bridge.copyOut Invocation.output
  rw [hcount]
  congr 1
  split
  . have ⟨rest, hrest⟩ := hfloats
    rw [← hrest, List.take_append_of_le_length]
    . simp only [pcm16ToFloat, ← List.map_take, List.take_take]
      congr 2
      omega
    . simp only [pcm16ToFloat, List.length_map, List.length_take]
      omega
  . next hnone =>
    have hzero : (min (s.gCmd.decodedSamples : Int) call.maxSamples).toNat = 0 := by omega
    rw [hzero]
    simp [pcm16ToFloat]

theorem inv_spu {d : Decoder δ} {s t : Bridge δ} {history : List Invocation} {ticks : UInt32}
    (h : Inv s history) (hstep : s.spuStep d ticks = some t)
    : Inv t (note d s (.spu ticks) t history) := by
  have hidle : s.spu = .waiting → s.signal1 = none → False := by
    intro hspu hsignal
    rw [spuStep_of_idle hspu hsignal] at hstep
    contradiction
  have hppu := spuStep_ppu hstep
  unfold Inv at h ⊢
  rw [hppu]
  cases hpc : s.ppu <;> simp only [hpc] at h ⊢
  case copyingIn call => exact (hidle h.left.left h.left.right.left).elim
  case storing call stores => exact (hidle h.left.left h.left.right.left).elim
  case signalling call => exact (hidle h.left.left h.left.right.left).elim
  case polling call => exact ⟨h.left, serving_step h.left h.right hstep⟩
  case checking call => exact ⟨h.left, serving_step h.left h.right hstep⟩
  case readingCount call => exact (hidle h.left h.right.left).elim
  case copyingOut call decoded => exact (hidle h.left.left h.left.right.left).elim
  case readingTicks call output => exact (hidle h.left.left h.left.right.left).elim
  case readingStatus call output => exact (hidle h.left.left h.left.right.left).elim
  case returned call code output => exact matched_mono d ticks hppu h

/-
The PPU.
-/

theorem matched_of_not_ok {s : Bridge δ} {history : List Invocation} {call : DecodeCall}
    {code : ReturnCode} {output : Option Output} (hppu : s.ppu = .returned call code output)
    (hcode : code ≠ .ok)
    : Matched s history := by
  intro call' output' hreturned
  rw [hppu] at hreturned
  injection hreturned with _ hok
  contradiction

/- The poll loop only ends when the worker has answered. -/
theorem served_of_answered {s : Bridge δ} {call : DecodeCall} {history : List Invocation}
    (h : Serving s call history) (hanswered : s.gCmd.status ≠ .busy)
    : Served s call history := by
  unfold Serving at h
  cases hspu : s.spu <;> simp only [hspu] at h
  case waiting =>
    cases h with
    | inl hrequested => exact absurd hrequested.right.left.status hanswered
    | inr hserved => exact ⟨hspu, hserved.left, hserved.right.right⟩
  case fetching => exact absurd h.right.left.status hanswered
  all_goals exact absurd h.right.left hanswered

/- The five stores of a request, in the order of the source. -/
theorem inv_store {s : Bridge δ} {history : List Invocation} {call : DecodeCall} {stores : Nat}
    (h : Quiet s history ∧ (call.packet.getD []).length ≤ spuOpusMaxPacketLen
      ∧ call.bytes <+: s.gBounceOpus
      ∧ (0 < stores → s.gCmd.cmd = .decode) ∧ (1 < stores → s.gCmd.status = .busy)
      ∧ (2 < stores → s.gCmd.opusLen = call.inLen) ∧ (3 < stores → s.gCmd.eaOpusIn = .bounce))
    (hpc : s.ppu = .storing call stores)
    : Inv
        { s with
          gCmd := Bridge.storeDecode s.gCmd call.inLen stores
          ppu := if stores < 4 then .storing call (stores + 1) else .signalling call }
        history := by
  have ⟨hquiet, hlength, hbytes, hcmd, hstatus, hopusLen, hea⟩ := h
  match stores with
  | 0 => exact ⟨hquiet, hlength, hbytes, by simp [Bridge.storeDecode]⟩
  | 1 =>
    refine ⟨hquiet, hlength, hbytes, ?_, by simp [Bridge.storeDecode]⟩
    intro _
    exact hcmd (by omega)
  | 2 =>
    refine ⟨hquiet, hlength, hbytes, ?_, ?_, by simp [Bridge.storeDecode]⟩
    . intro _
      exact hcmd (by omega)
    . intro _
      exact hstatus (by omega)
  | 3 =>
    refine ⟨hquiet, hlength, hbytes, ?_, ?_, ?_, by simp [Bridge.storeDecode]⟩
    . intro _
      exact hcmd (by omega)
    . intro _
      exact hstatus (by omega)
    . intro _
      exact hopusLen (by omega)
  | stores + 4 =>
    rw [if_neg (by omega)]
    refine ⟨hquiet, hlength, hbytes, ?_⟩
    exact ⟨hcmd (by omega), hstatus (by omega), hopusLen (by omega), hea (by omega), rfl⟩

theorem inv_ppu {s t : Bridge δ} {history : List Invocation} {sampleRate channels : UInt32}
    {timeout : Bool} (h : Inv s history) (hstep : s.ppuStep sampleRate channels timeout = some t)
    : Inv t history := by
  unfold Bridge.ppuStep at hstep
  unfold Inv at h
  cases hpc : s.ppu <;> simp only [hpc, Option.some.injEq, reduceCtorEq] at hstep h
  case initStoring stores =>
    rw [← hstep]
    cases Nat.decLt stores 5 with
    | isTrue hmore =>
      rw [if_pos hmore]
      trivial
    | isFalse hlast =>
      rw [if_neg hlast]
      trivial
  case initSignalling =>
    rw [← hstep]
    trivial
  case initPolling =>
    split at hstep
    . injection hstep with hstep
      rw [← hstep]
      trivial
    . injection hstep with hstep
      rw [← hstep]
      trivial
  case initChecking =>
    rw [← hstep]
    cases timeout with
    | true => trivial
    | false => trivial
  case copyingIn call =>
    have ⟨hquiet, hlength⟩ := h
    split at hstep
    . injection hstep with hstep
      rw [← hstep]
      exact ⟨hquiet, hlength, isPrefix_overlay _ _, by simp⟩
    . next hnone =>
      injection hstep with hstep
      rw [← hstep]
      have hempty : call.bytes = [] := by
        apply List.eq_nil_of_length_eq_zero
        rw [call.length_bytes]
        omega
      refine ⟨hquiet, hlength, ?_, by simp⟩
      rw [hempty]
      apply List.nil_prefix
  case storing call stores =>
    rw [← hstep]
    apply inv_store h hpc
  case signalling call =>
    have ⟨hquiet, hlength, hbytes, hrequest⟩ := h
    rw [← hstep]
    refine ⟨hlength, ?_⟩
    unfold Serving
    rw [hquiet.left]
    exact Or.inl ⟨rfl, hrequest, hbytes, hquiet.right.right⟩
  case polling call =>
    have ⟨hlength, hserving⟩ := h
    split at hstep
    . injection hstep with hstep
      rw [← hstep]
      exact ⟨hlength, hserving⟩
    . next hanswered =>
      injection hstep with hstep
      rw [← hstep]
      apply served_of_answered hserving hanswered
  case checking call =>
    rw [← hstep]
    cases timeout with
    | true =>
      -- a call that gives up does not return 0
      apply matched_of_not_ok rfl
      simp
    | false => exact h
  case readingCount call =>
    rw [← hstep]
    exact ⟨h, rfl⟩
  case copyingOut call decoded =>
    rw [← hstep]
    refine ⟨h.left, ?_⟩
    rw [h.right]
    rfl
  case readingTicks call output =>
    rw [← hstep]
    exact h
  case readingStatus call output =>
    have ⟨hserved, houtput⟩ := h
    rw [← hstep]
    intro call' output' hreturned
    injection hreturned with hcall hcode hreturned
    split at hcode
    . next hok =>
      rw [← hreturned, ← hcall, houtput]
      have ⟨invocation, hmem, hpacket, hmatch⟩ := hserved.answer hok
      refine ⟨invocation, hmem, hpacket, ?_⟩
      rw [hmatch]
    . contradiction
  case quitStoring =>
    rw [← hstep]
    trivial
  case quitSignalling =>
    rw [← hstep]
    trivial
  case joining =>
    split at hstep
    . injection hstep with hstep
      rw [← hstep]
      trivial
    . simp at hstep

theorem inv_call {s : Bridge δ} {call : DecodeCall} (hundisturbed : Undisturbed s (.call call))
    : Inv (s.callDecode call) [] := by
  unfold Bridge.callDecode
  split
  . apply matched_of_not_ok rfl
    simp
  . exact ⟨⟨hundisturbed.left, hundisturbed.right.left, rfl⟩, hundisturbed.right.right⟩

theorem inv_step {d : Decoder δ} {sampleRate channels : UInt32} {s t : Bridge δ} {e : Event}
    {history : List Invocation} (h : Inv s history) (hundisturbed : Undisturbed s e)
    (hstep : step d sampleRate channels s e = some t)
    : Inv t (note d s e t history) := by
  unfold step at hstep
  cases e with
  | ppu timeout => exact inv_ppu h hstep
  | spu ticks => exact inv_spu h hstep
  | call call =>
    dsimp only at hstep
    split at hstep
    . injection hstep with hstep
      rw [← hstep]
      apply inv_call hundisturbed
    . simp at hstep
  | shutdown =>
    dsimp only at hstep
    split at hstep
    . injection hstep with hstep
      rw [← hstep]
      cases hinitialized : s.gInitialized with
      | true => trivial
      | false => trivial
    . simp at hstep

theorem Inv.matched {s : Bridge δ} {history : List Invocation} (h : Inv s history)
    : Matched s history := by
  intro call output hreturned
  unfold Inv at h
  rw [hreturned] at h
  exact h call output hreturned

/-
In every run whose calls all begin undisturbed, every call that returns 0 has delivered the decoder's
output for its own packet.
-/
theorem undisturbed_calls_matched (d : Decoder δ) (sampleRate channels : UInt32) (s : Bridge δ)
    (t : Bridge δ × List Invocation) (events : List Event)
    (hmeet : (recorded d sampleRate channels s).StepsMeet (fun s e => Undisturbed s.fst e)
      (recorded d sampleRate channels s).init events)
    (hrun : (recorded d sampleRate channels s).run events = some t)
    : Matched t.fst t.snd := by
  apply Inv.matched
  apply (recorded d sampleRate channels s).runFrom_invariant_of_stepsMeet
    (fun s e => Undisturbed s.fst e) (fun s => Inv s.fst s.snd) _ _ _ events _ hmeet hrun
  . intro s e t h hundisturbed hstep
    have ⟨hstep, hnote⟩ := Transition.Machine.instrument_step_eq_some.mp hstep
    rw [hnote]
    apply inv_step h hundisturbed hstep
  . trivial

/-
A decoder on its first packets, which have no payload: silence as long as the first byte says, five
milliseconds or two and a half.
-/
def silence : Decoder Unit where
  init _ _ := ⟨(), true⟩
  decode _ packet :=
    match packet with
    | some [0xE4] => ⟨(), 120, List.replicate 240 0⟩
    | some [0xEC] => ⟨(), 240, List.replicate 480 0⟩
    | _ => ⟨(), -4, []⟩
  count_le := by
    intro _ packet
    split <;> decide
  length_pcm := by
    intro _ packet
    split
    . left
      rw [List.length_replicate]
      rfl
    . left
      rw [List.length_replicate]
      rfl
    . right
      decide

def zeroBlock : CommandBlock where
  cmd := .nop
  status := .idle
  sampleRate := 0
  channels := 0
  opusLen := 0
  decodedSamples := 0
  elapsedTicks := 0
  eaOpusIn := .null
  eaPcmOut := .null

def freshBridge : Bridge Unit where
  gCmd := zeroBlock
  gBounceOpus := []
  gBouncePcm := []
  gInitialized := false
  gLastElapsed := 0
  signal1 := none
  ppu := .initStoring 0
  spu := .waiting
  lsCmd := zeroBlock
  lsOpusIn := []
  lsPcmFloat := []
  gMsDecoder := none

/- A call for a packet of one byte, with the room that the audio renderer offers. -/
def oneByteCall (byte : UInt8) : DecodeCall where
  opusData := some [byte]
  opusLen := 1
  hasOutput := true
  maxSamples := 5760
  enough := by
    intro data hdata
    injection hdata with hdata
    simp [← hdata]

/- The worker answers INIT within the time the PPU waits for it. -/
def initialise : List Event :=
  List.replicate 7 (.ppu false) ++ List.replicate 4 (.spu 0) ++ [.ppu false]

theorem undisturbed_calls_matched_first_call
    : ∃ t : Bridge Unit × List Invocation,
        (recorded silence 48000 2 freshBridge).run
            (initialise ++ [.call (oneByteCall 0xE4)] ++ List.replicate 7 (.ppu false)
              ++ List.replicate 7 (.spu 0) ++ List.replicate 5 (.ppu false))
          = some t
          ∧
        (∃ output, t.fst.ppu = .returned (oneByteCall 0xE4) .ok (some output)
          ∧ output.outSamples = 120)
          ∧
        Matched t.fst t.snd := by
  let events := initialise ++ [.call (oneByteCall 0xE4)] ++ List.replicate 7 (.ppu false)
    ++ List.replicate 7 (.spu 0) ++ List.replicate 5 (.ppu false)
  have ⟨t, hrun, hreturned⟩ : ∃ t : Bridge Unit × List Invocation,
      (recorded silence 48000 2 freshBridge).run events = some t
        ∧ ∃ output, t.fst.ppu = .returned (oneByteCall 0xE4) .ok (some output)
          ∧ output.outSamples = 120 := by
    exact ⟨_, rfl, _, rfl, rfl⟩
  refine ⟨t, hrun, hreturned, ?_⟩
  apply undisturbed_calls_matched silence 48000 2 freshBridge t events _ hrun
  decide

/-
The first call is given up while the worker decodes, the second one takes the late answer for its own
and returns the first packet's samples.
-/
theorem late_answer_mismatched
    : ¬ ∀ (δ : Type) (d : Decoder δ) (sampleRate channels : UInt32) (s : Bridge δ)
          (t : Bridge δ × List Invocation) (events : List Event),
        (recorded d sampleRate channels s).run events = some t → Matched t.fst t.snd := by
  intro hclaim
  let events := initialise ++ [.call (oneByteCall 0xE4)] ++ List.replicate 7 (.ppu false)
    ++ List.replicate 5 (.spu 0) ++ [.ppu false, .ppu true, .call (oneByteCall 0xEC)]
    ++ List.replicate 7 (.ppu false) ++ List.replicate 2 (.spu 0) ++ List.replicate 5 (.ppu false)
  have ⟨t, hrun, hhistory, output, hreturned⟩ : ∃ t : Bridge Unit × List Invocation,
      (recorded silence 48000 2 freshBridge).run events = some t ∧ t.snd = []
        ∧ ∃ output, t.fst.ppu = .returned (oneByteCall 0xEC) .ok (some output) := by
    exact ⟨_, rfl, rfl, _, rfl⟩
  have ⟨invocation, hmem, _⟩ := hclaim Unit silence 48000 2 freshBridge t events hrun _ _ hreturned
  rw [hhistory] at hmem
  simp at hmem

end SpuOpus
end Audio
