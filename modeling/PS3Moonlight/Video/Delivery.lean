import PS3Moonlight.Video.SubmitMemory

/-!
This module contains a whole submission of a framed decode unit up to `vdecDecodeAu`: which bytes the
decoder gets for the units of a frame, however the frame is split into the entries of the chain.
-/

namespace Video
namespace Submission

/- The decode unit whose chain has the given pieces. -/
def chain (fragments : List (List UInt8)) : DecodeUnit where
  fullLength := fragments.flatten.length
  bufferList := fragments.map fun fragment => ⟨some fragment, fragment.length⟩

theorem u32_of_lt {n : Nat} (h : n < 2 ^ 32) : u32 n = n := by
  unfold u32
  omega

/- Growing the buffer for the unit does not fail. -/
def Grows (s : Submission) (env : Env) (decodeUnit : DecodeUnit) : Prop :=
  s.decodeBufferSize < needed decodeUnit
    → ∃ block, env.memalign (newSize decodeUnit) = some block
        ∧ s.isFresh block (newSize decodeUnit) = true

/-
The first statements of a call: the unit is not refused, a slot is free and the front buffer is large
enough or replaced.
-/
theorem run_grow (v s : Submission) (decodeUnit : DecodeUnit) (clock : Clock) (env : Env) {n : Nat}
    (hlength : decodeUnit.fullLength = n) (hpositive : 0 < n) (hmax : n ≤ vdecDecodeBufMax)
    (hrest : s.pc.atRest = true) (hpending : s.vdecAuPending < vdecBufCount)
    (hgrow : s.Grows env decodeUnit)
    : ∃ t,
        (machine v).runFrom s (.call (some decodeUnit) clock :: List.replicate 2 (.proceed env))
          = some t
          ∧
        t.pc = .copying decodeUnit decodeUnit.bufferList 0
          ∧
        n ≤ t.decodeBufferSize := by
  have hu32 : u32 decodeUnit.fullLength = n := by
    rw [hlength]
    apply u32_of_lt
    unfold vdecDecodeBufMax at hmax
    omega
  have hcall : s.step (.call (some decodeUnit) clock)
      = some { s with stats := s.stats.noteSubmitted clock, pc := .entered decodeUnit } := by
    have henter : s.enter (some decodeUnit) clock
        = { s with stats := s.stats.noteSubmitted clock, pc := .entered decodeUnit } := by
      unfold enter
      dsimp only
      rw [if_neg]
      omega
    rw [← henter]
    unfold step
    cases hpc : s.pc <;> simp_all [Pc.atRest]
  have hneeded : n ≤ needed decodeUnit := by
    unfold needed
    unfold vdecDecodeBufMax at hmax
    omega
  have hnewSize : n ≤ newSize decodeUnit := by
    unfold newSize needed
    unfold vdecDecodeBufMax at hmax
    omega
  let s₂ : Submission := { s with stats := s.stats.noteSubmitted clock, pc := .growing decodeUnit }
  have hcheck : Submission.step
      { s with stats := s.stats.noteSubmitted clock, pc := .entered decodeUnit } (.proceed env)
      = some s₂ := by
    simp only [step, proceed, checkPending]
    rw [if_neg (by omega)]
  have hgrown : ∃ t, s₂.step (.proceed env) = some t
      ∧ t.pc = .copying decodeUnit decodeUnit.bufferList 0 ∧ n ≤ t.decodeBufferSize := by
    simp only [s₂, step, proceed, grow]
    split
    . next hsmall =>
      obtain ⟨block, hblock, hfresh⟩ := hgrow hsmall
      rw [hblock]
      dsimp only
      refine ⟨_, if_pos hfresh, rfl, ?_⟩
      simpa [decodeBufferSize, replaceFront] using hnewSize
    . next hlarge =>
      refine ⟨_, rfl, rfl, ?_⟩
      simp only [decodeBufferSize] at hlarge ⊢
      omega
  obtain ⟨t, hstep, hpc, hsize⟩ := hgrown
  refine ⟨t, ?_, hpc, hsize⟩
  simp only [List.replicate_succ, List.replicate_zero, Transition.Machine.runFrom_cons, machine,
    hcall, hcheck, hstep, Option.bind_some, Transition.Machine.runFrom_nil]

/-
The loop over the chain appends the pieces one behind the other.
-/
theorem run_copy (v s : Submission) (decodeUnit : DecodeUnit) (env : Env)
    (fragments : List (List UInt8)) (pre rest : List UInt8)
    (hpc : s.pc = .copying decodeUnit
      (fragments.map fun fragment => ⟨some fragment, fragment.length⟩) pre.length)
    (hmem : s.decodeBuffer = pre ++ rest)
    (hroom : pre.length + fragments.flatten.length ≤ s.decodeBufferSize)
    (hmax : pre.length + fragments.flatten.length < 2 ^ 32)
    : ∃ t,
        (machine v).runFrom s (List.replicate fragments.length (.proceed env)) = some t
          ∧
        t.pc = .copying decodeUnit [] (pre ++ fragments.flatten).length
          ∧
        t.decodeBuffer = pre ++ fragments.flatten ++ rest.drop fragments.flatten.length
          ∧
        t.decodeBufferSize = s.decodeBufferSize := by
  induction fragments generalizing s pre rest with
  | nil =>
    refine ⟨s, rfl, ?_, ?_, rfl⟩
    . simpa using hpc
    . simpa using hmem
  | cons fragment fragments ih =>
    simp only [List.flatten_cons, List.length_append] at hroom hmax
    have hu32 : u32 fragment.length = fragment.length := by
      apply u32_of_lt
      omega
    let next : Submission :=
      { s.store (pre ++ fragment ++ rest.drop fragment.length) with
        pc := .copying decodeUnit (fragments.map fun fragment => ⟨some fragment, fragment.length⟩)
          (pre ++ fragment).length }
    have hstep : s.step (.proceed env) = some next := by
      simp only [next, step, proceed, hpc, List.map_cons, copyEntry, hu32]
      rw [if_neg (by omega), hmem, Bytes.read, List.drop_zero, List.take_length, Bytes.write_after]
      simp
    have hnext : next.decodeBuffer = pre ++ fragment ++ rest.drop fragment.length := by
      simp [next, decodeBuffer, store]
    have hroom' : (pre ++ fragment).length + fragments.flatten.length ≤ next.decodeBufferSize := by
      simp only [next, decodeBufferSize, store, List.length_append] at hroom ⊢
      omega
    obtain ⟨t, hrun, htpc, htmem, htsize⟩ := ih next _ _ rfl hnext hroom'
      (by simp only [List.length_append]; omega)
    refine ⟨t, ?_, ?_, ?_, htsize⟩
    . rw [List.length_cons, List.replicate_succ, Transition.Machine.runFrom_cons]
      simp only [machine] at hrun ⊢
      rw [hstep]
      exact hrun
    . rw [htpc]
      simp
    . rw [htmem]
      simp

/-
The last statements before `vdecDecodeAu`: the conversion and the increment of the counter.
-/
theorem run_frame (v s : Submission) (decodeUnit : DecodeUnit) (env : Env) {n : Nat}
    (c : AnnexB.Conversion) (hpc : s.pc = .copying decodeUnit [] n) (hpositive : 0 < n)
    (hlength : u32 decodeUnit.fullLength = n)
    (hconvert : AnnexB.convert s.decodeBuffer s.decodeBufferSize n = some c)
    (hsubmit : c.submit = true)
    : ∃ t,
        (machine v).runFrom s (List.replicate 3 (.proceed env)) = some t
          ∧
        t.pc = .decoding ⟨s.vdecBuf s.vdecFront, c.length⟩
          ∧
        t.heap (s.vdecBuf s.vdecFront) = c.mem := by
  let framing : Submission := { s with pc := .framing n }
  let submitting : Submission :=
    { s.store c.mem with pc := .submitting ⟨s.vdecBuf s.vdecFront, c.length⟩ }
  have hcopied : s.step (.proceed env) = some framing := by
    simp only [step, proceed, hpc, copyEntry, hlength]
    rw [if_neg (by omega)]
  have hframed : framing.step (.proceed env) = some submitting := by
    have hconvert' : AnnexB.convert framing.decodeBuffer framing.decodeBufferSize n = some c := by
      exact hconvert
    simp only [framing, step, proceed]
    unfold frame
    rw [hconvert']
    simp only [hsubmit, ↓reduceIte]
    rfl
  refine ⟨{ submitting with
    vdecAuPending := s.vdecAuPending + 1
    pc := .decoding ⟨s.vdecBuf s.vdecFront, c.length⟩ }, ?_, rfl, ?_⟩
  . simp only [List.replicate_succ, List.replicate_zero, Transition.Machine.runFrom_cons, machine,
      hcopied, hframed, Option.bind_some, Transition.Machine.runFrom_nil]
    rfl
  . simp [submitting, store]

/-
A framed unit always reaches the decoder, and the decoder gets what it expects if and only if the
framing can be recognised.
-/
theorem run_framed (v s : Submission) (framed : AnnexB.Framed) (fragments : List (List UInt8))
    (clock : Clock) (env : Env) (hbounded : s.Bounded) (hrest : s.pc.atRest = true)
    (hpending : s.vdecAuPending < vdecBufCount) (hgrow : s.Grows env (chain fragments))
    (hne : framed.units ≠ []) (hunits : ∀ unit, unit ∈ framed.units → unit ≠ [])
    (hmax : framed.bytes.length ≤ vdecDecodeBufMax) (hsplit : fragments.flatten = framed.bytes)
    : ∃ t au,
        (machine v).runFrom s
            (.call (some (chain fragments)) clock
              :: List.replicate (fragments.length + 5) (.proceed env))
          = some t
          ∧
        t.pc = .decoding au
          ∧
        (Bytes.read (t.heap au.packetAddr) 0 au.packetSize = framed.expected
          ↔ framed.Recognised) := by
  have hsmall : framed.bytes.length + 4 < 2 ^ 32 := by
    unfold vdecDecodeBufMax at hmax
    omega
  have hpositive := framed.bytes_pos hne
  have ⟨s₁, hrun₁, hpc₁, hsize₁⟩ := run_grow v s (chain fragments) clock env
    (n := framed.bytes.length) (by rw [← hsplit]; rfl) hpositive hmax hrest hpending hgrow
  have hbounded₁ := bounded_of_runFrom hbounded hrun₁
  have ⟨s₂, hrun₂, hpc₂, hmem₂, hsize₂⟩ := run_copy v s₁ (chain fragments) env fragments []
    s₁.decodeBuffer hpc₁ (by simp) (by simpa [hsplit] using hsize₁) (by simp [hsplit]; omega)
  rw [List.nil_append, hsplit] at hpc₂ hmem₂
  have ⟨mem, hconvert, hiff⟩ := AnnexB.convert_framed framed
    (s₁.decodeBuffer.drop framed.bytes.length) s₂.decodeBufferSize hne hunits hsmall
  rw [← hmem₂] at hconvert
  have hlength : u32 (chain fragments).fullLength = framed.bytes.length := by
    rw [← hsplit]
    apply u32_of_lt
    rw [hsplit]
    omega
  have ⟨t, hrun₃, hpc₃, hmem₃⟩ := run_frame v s₂ (chain fragments) env _ hpc₂ hpositive hlength
    hconvert rfl
  refine ⟨t, _, ?_, hpc₃, ?_⟩
  . have hevents : (.call (some (chain fragments)) clock
          :: List.replicate (fragments.length + 5) (.proceed env) : List Event)
        = (.call (some (chain fragments)) clock :: List.replicate 2 (.proceed env))
          ++ (List.replicate fragments.length (.proceed env) ++ List.replicate 3 (.proceed env)) := by
      simp only [List.replicate_append_replicate, List.cons_append]
      congr 2
      omega
    rw [hevents, Transition.Machine.runFrom_append, hrun₁, Option.bind_some,
      Transition.Machine.runFrom_append, hrun₂, Option.bind_some, hrun₃]
  . dsimp only
    rw [hmem₃, Bytes.read, List.drop_zero]
    exact hiff

theorem decoder_gets_units_iff (v s : Submission) (framed : AnnexB.Framed)
    (fragments : List (List UInt8)) (clock : Clock) (env : Env) (hallocated : v.Allocated)
    (hreachable : (machine v).Reachable s) (hrest : s.pc.atRest = true)
    (hpending : s.vdecAuPending < vdecBufCount) (hgrow : s.Grows env (chain fragments))
    (hne : framed.units ≠ []) (hunits : ∀ unit, unit ∈ framed.units → unit ≠ [])
    (hmax : framed.bytes.length ≤ vdecDecodeBufMax) (hsplit : fragments.flatten = framed.bytes)
    : ∃ t au,
        (machine v).runFrom s
            (.call (some (chain fragments)) clock
              :: List.replicate (fragments.length + 5) (.proceed env))
          = some t
          ∧
        t.pc = .decoding au
          ∧
        (Bytes.read (t.heap au.packetAddr) 0 au.packetSize = framed.expected
          ↔ framed.Recognised) := by
  apply run_framed v s framed fragments clock env _ hrest hpending hgrow hne hunits hmax hsplit
  apply bounded_of_reachable hallocated hreachable

theorem decoder_gets_units_iff_three_fragments
    : ∃ t au,
        (machine (fourBuffers 128)).run
            (.call (some (chain [[0, 0], [0, 3, 0x65], [1, 2, 0, 0, 0, 1, 0x41]])) default
              :: List.replicate 8 (.proceed (answering 0)))
          = some t
          ∧
        t.pc = .decoding au
          ∧
        Bytes.read (t.heap au.packetAddr) 0 au.packetSize
          = [0, 0, 0, 1, 0x65, 1, 2, 0, 0, 0, 1, 0x41] := by
  have ⟨t, au, hrun, hpc, hiff⟩ := decoder_gets_units_iff (fourBuffers 128) _
    (.avcc [[0x65, 1, 2], [0x41]]) [[0, 0], [0, 3, 0x65], [1, 2, 0, 0, 0, 1, 0x41]] default
    (answering 0) (fourBuffers_allocated 128) (Transition.Machine.Reachable.init _) rfl (by decide)
    (by intro hsmall; revert hsmall; decide) (by decide) (by decide) (by decide) (by decide)
  exact ⟨t, au, hrun, hpc, hiff.mpr ⟨by decide, by decide⟩⟩

/-
One unit of 256 bytes: its length field 00 00 01 00 looks like a start code, and the decoder gets the
length field.
-/
theorem decoder_misses_unit_of_256_bytes
    : ¬ ∀ (v s : Submission) (framed : AnnexB.Framed) (fragments : List (List UInt8))
          (clock : Clock) (env : Env),
        v.Allocated → (machine v).Reachable s → s.pc.atRest = true
          → s.vdecAuPending < vdecBufCount → s.Grows env (chain fragments)
          → framed.units ≠ [] → (∀ unit, unit ∈ framed.units → unit ≠ [])
          → framed.bytes.length ≤ vdecDecodeBufMax → fragments.flatten = framed.bytes
          → (∀ fragment, fragment ∈ fragments → fragment ≠ [])
          → ∃ t au,
              (machine v).runFrom s
                  (.call (some (chain fragments)) clock
                    :: List.replicate (fragments.length + 5) (.proceed env))
                = some t
                ∧
              t.pc = .decoding au
                ∧
              Bytes.read (t.heap au.packetAddr) 0 au.packetSize = framed.expected := by
  intro hclaim
  obtain ⟨unit, hunit⟩ : ∃ unit : List UInt8, unit.length = 256 := by
    exact ⟨List.replicate 256 0x65, List.length_replicate⟩
  have hpositive : unit ≠ [] := by
    rw [← List.length_pos_iff]
    omega
  let framed : AnnexB.Framed := .avcc [unit]
  have hlength : framed.bytes.length = 260 := by
    simp [framed, AnnexB.Framed.bytes, AnnexB.avcc, hunit]
  have hsplit : [framed.bytes].flatten = framed.bytes := by
    simp
  have hne : framed.units ≠ [] := by
    simp [framed, AnnexB.Framed.units]
  have hunits : ∀ unit, unit ∈ framed.units → unit ≠ [] := by
    simpa [framed, AnnexB.Framed.units] using hpositive
  have hfragments : ∀ fragment, fragment ∈ [framed.bytes] → fragment ≠ [] := by
    intro fragment hfragment
    rw [List.mem_singleton.mp hfragment, ← List.length_pos_iff]
    omega
  have hmax : framed.bytes.length ≤ vdecDecodeBufMax := by
    rw [hlength]
    decide
  have hgrow : (machine (fourBuffers 512)).init.Grows (answering 0) (chain [framed.bytes]) := by
    intro hsmall
    have hneeded : needed (chain [framed.bytes]) = 324 := by
      simp only [needed, chain, hsplit, hlength]
      decide
    rw [hneeded] at hsmall
    exact absurd hsmall (by decide)
  have hallocated := fourBuffers_allocated 512
  have hreachable := Transition.Machine.Reachable.init (machine (fourBuffers 512))
  obtain ⟨t, au, hrun, hpc, hbytes⟩ := hclaim _ _ framed [framed.bytes] default (answering 0)
    hallocated hreachable rfl (by decide) hgrow hne hunits hmax hsplit hfragments
  obtain ⟨t', au', hrun', hpc', hiff⟩ := run_framed (fourBuffers 512) _ framed [framed.bytes]
    default (answering 0)
    (bounded_of_reachable hallocated hreachable) rfl (by decide) hgrow hne hunits hmax hsplit
  rw [hrun] at hrun'
  injection hrun' with heq
  rw [← heq, hpc] at hpc'
  injection hpc' with hau
  rw [← heq, ← hau] at hiff
  have hrecognised := hiff.mp hbytes
  simp [framed, AnnexB.Framed.Recognised, hunit] at hrecognised

end Submission
end Video
