import PS3Moonlight.Video.AvccWalk

/-!
This module contains what an accepted walk says about the bytes: without an overflowing length field
they are records from the first byte to the last, each with its length in front.
-/

namespace Video
namespace AnnexB

/-
Behind some well formed records stands a length field that is so large that the sum wraps around.
-/
def Overflows (bytes : List UInt8) : Prop :=
  ∃ units rest,
    bytes = avcc units ++ rest
      ∧
    4 ≤ rest.length
      ∧
    2 ^ 32 ≤ (avcc units).length + 4 + Bytes.readBe32 rest 0

theorem avcc_append (first second : List (List UInt8))
    : avcc (first ++ second) = avcc first ++ avcc second := by
  simp [avcc]

theorem annexB_append (first second : List (List UInt8))
    : annexB (first ++ second) = annexB first ++ annexB second := by
  simp [annexB]

/- Records can only be read in one way. -/
theorem avcc_eq_append {units first : List (List UInt8)} {rest : List UInt8}
    (hlength : (avcc units).length < 2 ^ 32) (h : avcc units = avcc first ++ rest)
    : ∃ second, units = first ++ second ∧ rest = avcc second := by
  induction first generalizing units with
  | nil => exact ⟨units, rfl, h.symm⟩
  | cons unit first ih =>
    cases units with
    | nil => simp [avcc, Bytes.be32] at h
    | cons unit' units =>
      have htotal := congrArg List.length h
      simp only [avcc_cons, List.append_assoc, List.length_append, Bytes.length_be32] at h hlength htotal
      have hparts := List.append_inj h (by simp)
      have hunit : unit'.length = unit.length := by
        apply Bytes.be32_injective _ _ hparts.left
        . omega
        . omega
      have hrest := List.append_inj hparts.right hunit
      obtain ⟨second, hsecond, heq⟩ := ih (by omega) hrest.right
      refine ⟨second, ?_, heq⟩
      rw [hrest.left, hsecond]
      rfl

theorem not_overflows_avcc {units : List (List UInt8)} (hlength : (avcc units).length < 2 ^ 32)
    : ¬ Overflows (avcc units) := by
  intro h
  have ⟨first, rest, heq, hfour, hwraps⟩ := h
  have ⟨second, hunits, hrest⟩ := avcc_eq_append hlength heq
  cases second with
  | nil =>
    rw [hrest] at hfour
    simp [avcc] at hfour
  | cons unit second =>
    rw [hunits, avcc_append] at hlength
    simp only [avcc_cons, List.length_append, Bytes.length_be32] at hlength
    have hread := Bytes.readBe32_be32 [] (unit ++ avcc second) (by omega : unit.length < 2 ^ 32)
    rw [List.nil_append, ← avcc_cons, ← hrest, List.length_nil] at hread
    omega

/-
What the walk has behind it: the records it has read, with a start code for each length field.
-/
def Follows (bytes : List UInt8) (w : Walk) : Prop :=
  ∃ units rest,
    (∀ unit, unit ∈ units → unit ≠ [])
      ∧
    bytes = avcc units ++ rest
      ∧
    w.mem = annexB units ++ rest
      ∧
    w.pos = (avcc units).length

theorem follows_start (bytes : List UInt8) : Follows bytes ⟨bytes, 0, 0⟩ := by
  refine ⟨[], bytes, ?_, rfl, rfl, rfl⟩
  simp

/- A length field that fits splits off one more record. -/
theorem exists_record (rest : List UInt8) (hfour : 4 ≤ rest.length)
    (hfits : Bytes.readBe32 rest 0 + 4 ≤ rest.length)
    : ∃ unit rest',
        unit.length = Bytes.readBe32 rest 0
          ∧
        rest.drop 4 = unit ++ rest'
          ∧
        rest = Bytes.be32 unit.length ++ (unit ++ rest') := by
  refine ⟨(rest.drop 4).take (Bytes.readBe32 rest 0), (rest.drop 4).drop (Bytes.readBe32 rest 0),
    ?_, ?_, ?_⟩
  . rw [List.length_take, List.length_drop]
    omega
  . rw [List.take_append_drop]
  . have hlength : ((rest.drop 4).take (Bytes.readBe32 rest 0)).length = Bytes.readBe32 rest 0 := by
      rw [List.length_take, List.length_drop]
      omega
    rw [hlength, List.take_append_drop, Bytes.be32_readBe32]
    conv =>
      lhs
      rw [Bytes.eq_append_field rest (by omega : 0 + 4 ≤ rest.length)]
    simp

theorem walkBody_follows {bytes : List UInt8} {w w' : Walk} (hlength : bytes.length + 4 < 2 ^ 32)
    (hfits : ¬ Overflows bytes) (h : Follows bytes w) (hbody : walkBody bytes.length w = .inl w')
    : Follows bytes w' := by
  have ⟨units, rest, hunits, hbytes, hmem, hpos⟩ := h
  have htotal := congrArg List.length hbytes
  rw [List.length_append] at htotal
  rw [walkBody_eq_inl_iff hlength (by omega)] at hbody
  have ⟨hroom, hpositive, hbehind, hnext⟩ := hbody
  have hread : Bytes.readBe32 w.mem w.pos = Bytes.readBe32 rest 0 := by
    rw [hmem, hpos, ← length_annexB]
    apply Bytes.readBe32_append_right
  have hsum : (avcc units).length + 4 + Bytes.readBe32 rest 0 < 2 ^ 32 := by
    apply Nat.lt_of_not_le
    intro hwraps
    apply hfits ⟨units, rest, hbytes, by omega, hwraps⟩
  have hexact : behind w = (avcc units).length + 4 + Bytes.readBe32 rest 0 := by
    unfold behind
    rw [hread, hpos, Nat.mod_eq_of_lt hsum]
  have ⟨unit, rest', hunit, hdrop, hrecord⟩ := exists_record rest (by omega) (by omega)
  refine ⟨units ++ [unit], rest', ?_, ?_, ?_, ?_⟩
  . intro other hother
    rw [List.mem_append, List.mem_singleton] at hother
    cases hother with
    | inl hother => exact hunits other hother
    | inr hother =>
      rw [hother, ← List.length_pos_iff]
      omega
  . rw [avcc_append, hbytes]
    conv =>
      lhs
      rw [hrecord]
    simp [avcc]
  . rw [hnext, hmem, hpos, ← length_annexB, Bytes.write_after, length_startCode, hdrop, annexB_append]
    simp [annexB]
  . rw [hnext, avcc_append]
    simp only [List.length_append]
    rw [hexact, hunit.symm]
    simp [avcc]
    omega

theorem walk_covers_iff (bytes : List UInt8) {fuel : Nat} {w : Walk}
    (hlength : bytes.length + 4 < 2 ^ 32)
    (hwalk : Loop.iter (walkBody bytes.length) fuel ⟨bytes, 0, 0⟩ = some w)
    (hend : w.pos = bytes.length)
    : (∃ units,
        (∀ unit, unit ∈ units → unit ≠ []) ∧ bytes = avcc units ∧ w.mem = annexB units)
        ↔
      ¬ Overflows bytes := by
  constructor
  . intro hrecords
    have ⟨units, _, hbytes, _⟩ := hrecords
    rw [hbytes]
    apply not_overflows_avcc
    rw [← hbytes]
    omega
  . intro hfits
    have ⟨u, hhead, hleave⟩ := Loop.exists_head_of_iter hwalk
    have hfollows := hhead.invariant (Follows bytes)
      (fun _ _ => walkBody_follows hlength hfits) (follows_start bytes)
    have hinside := head_inside hlength (Nat.le_refl bytes.length) hhead
    rw [walkBody_eq_inr_iff hlength hinside.right] at hleave
    rw [← hleave.right] at hfollows
    have ⟨units, rest, hunits, hbytes, hmem, hpos⟩ := hfollows
    have hrest : rest = [] := by
      have htotal := congrArg List.length hbytes
      rw [List.length_append] at htotal
      rw [← List.length_eq_zero_iff]
      omega
    rw [hrest, List.append_nil] at hbytes hmem
    exact ⟨units, hunits, hbytes, hmem⟩

end AnnexB

namespace Submission

/- Whether the walk over the front buffer replaces a length field. -/
def Replaces (s : Submission) (length : Nat) : Prop :=
  ∃ w,
    Loop.iter (AnnexB.walkBody length) (AnnexB.walkFuel length) ⟨s.decodeBuffer, 0, 0⟩ = some w
      ∧
    w.converted ≠ 0

/- A walk that replaces a field hands its buffer on exactly if it ends at the end. -/
theorem frame_of_replaces {s t : Submission} {length : Nat} {au : VdecAU} (hlong : 4 < length)
    (hguess : AnnexB.isAnnexB s.decodeBuffer = false) (hreplaces : s.Replaces length)
    (hstep : s.frame length = some t) (hsubmit : t.pc = .submitting au)
    : ∃ w,
        Loop.iter (AnnexB.walkBody length) (AnnexB.walkFuel length) ⟨s.decodeBuffer, 0, 0⟩ = some w
          ∧
        w.pos = length
          ∧
        t.heap au.packetAddr = w.mem
          ∧
        au.packetSize = length := by
  have ⟨w, hwalk, hconverted⟩ := hreplaces
  have hconvert : AnnexB.convert s.decodeBuffer s.decodeBufferSize length
      = some ⟨w.mem, length, w.pos == length⟩ := by
    unfold AnnexB.convert
    simp only [hguess, hlong, decide_true, Bool.not_false, Bool.and_self, ↓reduceIte, hwalk,
      hconverted]
  unfold frame at hstep
  rw [hconvert] at hstep
  dsimp only at hstep
  split at hstep
  . next hend =>
    injection hstep with hstep
    rw [← hstep] at hsubmit
    injection hsubmit with hau
    refine ⟨w, hwalk, by simpa using hend, ?_, ?_⟩
    . rw [← hau, ← hstep]
      simp [store]
    . rw [← hau]
  . injection hstep with hstep
    rw [← hstep] at hsubmit
    simp at hsubmit

/-
A submitted buffer in which the walk has replaced a length field consists of records, unless there is a
length field in it that makes the sum wrap around.
-/
theorem submitted_records_iff (v s t : Submission) (env : Env) (length : Nat) (au : VdecAU)
    (hallocated : v.Allocated) (hreachable : (machine v).Reachable s)
    (hpc : s.pc = .framing length) (hlong : 4 < length)
    (hguess : AnnexB.isAnnexB s.decodeBuffer = false) (hreplaces : s.Replaces length)
    (hstep : s.step (.proceed env) = some t) (hsubmit : t.pc = .submitting au)
    : (∃ units,
        (∀ unit, unit ∈ units → unit ≠ [])
          ∧
        s.decodeBuffer.take length = AnnexB.avcc units
          ∧
        Bytes.read (t.heap au.packetAddr) 0 au.packetSize = AnnexB.annexB units)
        ↔
      ¬ AnnexB.Overflows (s.decodeBuffer.take length) := by
  have hbounded := bounded_of_reachable hallocated hreachable
  have hinside := hbounded.inside
  rw [Inside, hpc] at hinside
  have hsize : s.decodeBuffer.length = s.decodeBufferSize := hbounded.allocated.length _ hbounded.front
  have hbytes : (s.decodeBuffer.take length).length = length := by
    rw [List.length_take]
    omega
  have hsmall : length + 4 < 2 ^ 32 := by
    unfold vdecDecodeBufMax at hinside
    omega
  have hframe : s.frame length = some t := by
    simpa only [step, proceed, hpc] using hstep
  obtain ⟨w, hwalk, hend, hheap, hpacket⟩ := frame_of_replaces hlong hguess hreplaces hframe hsubmit
  -- the walk goes the same way without the bytes behind the unit
  have hlocal := AnnexB.walk_before (AnnexB.walkFuel length) ⟨s.decodeBuffer.take length, 0, 0⟩
    (s.decodeBuffer.drop length) hsmall hbytes (Nat.zero_le _)
  rw [AnnexB.Walk.before, List.take_append_drop, hwalk] at hlocal
  obtain ⟨w', hwalk', hw⟩ := Option.map_eq_some_iff.mp hlocal.symm
  have hmem : w'.mem.length = length := by
    have hkeeps := AnnexB.walk_inside hsmall (Nat.le_of_eq hbytes.symm) (Nat.zero_le _) hwalk'
    rw [hkeeps.left, hbytes]
  have hread : Bytes.read (t.heap au.packetAddr) 0 au.packetSize = w'.mem := by
    rw [hheap, hpacket, ← hw]
    simp only [AnnexB.Walk.before, Bytes.read, List.drop_zero]
    apply List.take_left'
    exact hmem
  have hend' : w'.pos = (s.decodeBuffer.take length).length := by
    rw [hbytes, ← hend, ← hw]
    rfl
  rw [hread]
  apply AnnexB.walk_covers_iff
  . rw [hbytes]
    exact hsmall
  . rw [hbytes]
    exact hwalk'
  . exact hend'

/- The run of one entry up to the conversion. -/
def submitting (entry : List UInt8) : List Event :=
  .call (some ⟨entry.length, [⟨some entry, entry.length⟩]⟩) default
    :: List.replicate 4 (.proceed (answering 0))

theorem submitted_records_iff_two_records
    : ∃ s t au,
        (machine (fourBuffers 128)).run (submitting [0, 0, 0, 2, 0x65, 0x88, 0, 0, 0, 1, 0x41])
          = some s
          ∧
        s.step (.proceed (answering 0)) = some t
          ∧
        t.pc = .submitting au
          ∧
        ∃ units,
          (∀ unit, unit ∈ units → unit ≠ [])
            ∧
          s.decodeBuffer.take 11 = AnnexB.avcc units
            ∧
          Bytes.read (t.heap au.packetAddr) 0 au.packetSize = AnnexB.annexB units := by
  obtain ⟨s, t, au, hrun, hstep, hpc, hau, hguess, hreplaces, hbytes⟩ :
      ∃ s t au,
        (machine (fourBuffers 128)).run (submitting [0, 0, 0, 2, 0x65, 0x88, 0, 0, 0, 1, 0x41])
            = some s
          ∧ s.step (.proceed (answering 0)) = some t ∧ s.pc = .framing 11 ∧ t.pc = .submitting au
          ∧ AnnexB.isAnnexB s.decodeBuffer = false ∧ s.Replaces 11
          ∧ s.decodeBuffer.take 11 = AnnexB.avcc [[0x65, 0x88], [0x41]] := by
    refine ⟨_, _, _, rfl, rfl, rfl, rfl, rfl, ⟨_, rfl, by decide⟩, rfl⟩
  have hrecords := submitted_records_iff (fourBuffers 128) s t (answering 0) 11 au
    (fourBuffers_allocated 128) ⟨_, hrun⟩ hpc (by decide) hguess hreplaces hstep hau
  refine ⟨s, t, au, hrun, hstep, hau, hrecords.mpr ?_⟩
  rw [hbytes]
  apply AnnexB.not_overflows_avcc
  decide

/-
A field of 0xfffffffc makes the walk stand still once, then it reads the start code it has written as a
length of one and gets to the end.
-/
theorem overflowing_field_submitted
    : ¬ ∀ (v s t : Submission) (env : Env) (length : Nat) (au : VdecAU),
        v.Allocated → (machine v).Reachable s → s.pc = .framing length → 4 < length
          → AnnexB.isAnnexB s.decodeBuffer = false → s.Replaces length
          → s.step (.proceed env) = some t → t.pc = .submitting au
          → ∃ units,
              (∀ unit, unit ∈ units → unit ≠ [])
                ∧
              s.decodeBuffer.take length = AnnexB.avcc units
                ∧
              Bytes.read (t.heap au.packetAddr) 0 au.packetSize = AnnexB.annexB units := by
  intro hclaim
  obtain ⟨s, t, au, hrun, hstep, hpc, hau, hguess, hreplaces, hbytes⟩ :
      ∃ s t au,
        (machine (fourBuffers 128)).run (submitting [0xff, 0xff, 0xff, 0xfc, 0x65]) = some s
          ∧ s.step (.proceed (answering 0)) = some t ∧ s.pc = .framing 5 ∧ t.pc = .submitting au
          ∧ AnnexB.isAnnexB s.decodeBuffer = false ∧ s.Replaces 5
          ∧ s.decodeBuffer.take 5 = [0xff, 0xff, 0xff, 0xfc, 0x65] := by
    refine ⟨_, _, _, rfl, rfl, rfl, rfl, rfl, ⟨_, rfl, by decide⟩, rfl⟩
  have ⟨units, _, hunits, _⟩ := hclaim (fourBuffers 128) s t (answering 0) 5 au
    (fourBuffers_allocated 128) ⟨_, hrun⟩ hpc (by decide) hguess hreplaces hstep hau
  have hoverflows : AnnexB.Overflows (s.decodeBuffer.take 5) := by
    refine ⟨[], _, rfl, ?_, ?_⟩
    . rw [hbytes]
      decide
    . rw [hbytes]
      decide
  have hlength : (AnnexB.avcc units).length < 2 ^ 32 := by
    rw [← hunits, hbytes]
    decide
  rw [hunits] at hoverflows
  apply AnnexB.not_overflows_avcc hlength hoverflows

end Submission
end Video
