import PS3Moonlight.Video.AvccWalk

/-!
This module contains a submission that no callback interrupts, from the call to its return code, through
every exit of `ps3_video_submit_decode_unit`: what each exit does to the counter and the front index, and
which of them answer `DR_OK` for a unit that never gets to the decoder.
-/

namespace Video
namespace AnnexB

/-
The buffers that the conversion hands on: too short for a length field, with a start code, with a first
length field that is no length, or with length fields that lead exactly to the end.
-/
def Submittable (bytes : List UInt8) : Prop :=
  bytes.length ≤ 4
    ∨
  isAnnexB bytes = true
    ∨
  Bytes.readBe32 bytes 0 = 0
    ∨
  bytes.length < (4 + Bytes.readBe32 bytes 0) % 2 ^ 32
    ∨
  ∃ w, Loop.Head (walkBody bytes.length) ⟨bytes, 0, 0⟩ w ∧ w.pos = bytes.length

theorem isAnnexB_append (bytes rest : List UInt8) (h : 4 ≤ bytes.length)
    : isAnnexB (bytes ++ rest) = isAnnexB bytes := by
  unfold isAnnexB
  rw [Bytes.read_append _ _ h, Bytes.read_append _ _ (by omega)]

theorem converted_pos {length fuel : Nat} {w w' : Walk} (hlength : length + 4 < 2 ^ 32)
    (hsize : length ≤ w.mem.length) (hpos : w.pos ≤ length) (hconverted : 0 < w.converted)
    (h : Loop.iter (walkBody length) fuel w = some w')
    : 0 < w'.converted := by
  apply Loop.iter_invariant
    (fun w => (length ≤ w.mem.length ∧ w.pos ≤ length) ∧ 0 < w.converted)
    (fun w => 0 < w.converted) _ _ ⟨⟨hsize, hpos⟩, hconverted⟩ h
  . intro w w' hw hbody
    refine ⟨walkBody_length hlength hw.left.left hw.left.right hbody, ?_⟩
    rw [walkBody_eq_inl_iff hlength hw.left.right] at hbody
    rw [hbody.right.right.right]
    apply Nat.succ_pos
  . intro w w' hw hbody
    rw [walkBody_eq_inr_iff hlength hw.left.right] at hbody
    rw [hbody.right]
    exact hw.right

/- The walk has replaced nothing exactly if it stopped at the first field. -/
theorem converted_eq_zero_iff {bytes : List UInt8} {fuel : Nat} {w : Walk}
    (hlong : 4 < bytes.length) (hlength : bytes.length < 2 ^ 31)
    (h : Loop.iter (walkBody bytes.length) fuel ⟨bytes, 0, 0⟩ = some w)
    : w.converted = 0
        ↔
      Bytes.readBe32 bytes 0 = 0 ∨ bytes.length < (4 + Bytes.readBe32 bytes 0) % 2 ^ 32 := by
  have hsmall : bytes.length + 4 < 2 ^ 32 := by omega
  cases fuel with
  | zero => simp [Loop.iter] at h
  | succ fuel =>
    cases hbody : walkBody bytes.length ⟨bytes, 0, 0⟩ with
    | inl first =>
      rw [Loop.iter_of_inl hbody] at h
      have hinside := walkBody_length hsmall (Nat.le_refl _) (Nat.zero_le _) hbody
      rw [walkBody_eq_inl_iff hsmall (Nat.zero_le _)] at hbody
      obtain ⟨_, hpositive, hbehind, hfirst⟩ := hbody
      have hconverted := converted_pos hsmall hinside.left hinside.right
        (by rw [hfirst]; exact Nat.succ_pos _) h
      simp only [behind, Nat.zero_add] at hpositive hbehind
      omega
    | inr last =>
      rw [Loop.iter_of_inr hbody, Option.some.injEq] at h
      rw [walkBody_eq_inr_iff hsmall (Nat.zero_le _)] at hbody
      obtain ⟨hstop, hlast⟩ := hbody
      simp only [behind, Nat.zero_add] at hstop
      rw [← h, hlast]
      simp only [true_iff]
      omega

/- A walk that has replaced something ends at the end exactly if its fields lead there. -/
theorem pos_eq_length_iff {bytes : List UInt8} {fuel : Nat} {w : Walk}
    (hlength : bytes.length < 2 ^ 31)
    (h : Loop.iter (walkBody bytes.length) fuel ⟨bytes, 0, 0⟩ = some w)
    : w.pos = bytes.length
        ↔
      ∃ w, Loop.Head (walkBody bytes.length) ⟨bytes, 0, 0⟩ w ∧ w.pos = bytes.length := by
  have hsmall : bytes.length + 4 < 2 ^ 32 := by omega
  constructor
  . intro hend
    have ⟨last, hhead, hleave⟩ := Loop.exists_head_of_iter h
    have hinside := head_inside hsmall (Nat.le_refl _) hhead
    rw [walkBody_eq_inr_iff hsmall hinside.right] at hleave
    rw [hleave.right] at hend
    exact ⟨last, hhead, hend⟩
  . intro hends
    have ⟨last, hhead, hend⟩ := hends
    have hleave : walkBody bytes.length last = .inr last := by
      rw [walkBody_eq_inr_iff hsmall (Nat.le_of_eq hend)]
      refine ⟨Or.inl ?_, rfl⟩
      omega
    rw [Loop.eq_of_head_of_iter hhead hleave h]
    exact hend

theorem convert_submit_iff (bytes rest : List UInt8) (size : Nat) (hlength : bytes.length < 2 ^ 31)
    : ∃ c, convert (bytes ++ rest) size bytes.length = some c
        ∧ (c.submit = true ↔ Submittable bytes) := by
  unfold convert
  split
  . next hguess =>
    simp only [Bool.and_eq_true, decide_eq_true_eq, Bool.not_eq_true'] at hguess
    rw [isAnnexB_append _ _ (by omega)] at hguess
    have hsmall : bytes.length + 4 < 2 ^ 32 := by omega
    have hsome : (Loop.iter (walkBody bytes.length) (walkFuel bytes.length) ⟨bytes, 0, 0⟩).isSome := by
      apply walk_isSome hlength
      . apply Nat.le_refl
      . apply Nat.zero_le
    have ⟨w, hwalk⟩ := Option.isSome_iff_exists.mp hsome
    have hlocal := walk_before (walkFuel bytes.length) ⟨bytes, 0, 0⟩ rest hsmall rfl (Nat.zero_le _)
    rw [hwalk] at hlocal
    simp only [Walk.before, Option.map_some] at hlocal
    rw [hlocal]
    dsimp only
    have hzero := converted_eq_zero_iff hguess.left hlength hwalk
    have hend := pos_eq_length_iff hlength hwalk
    split
    . next hnone =>
      have hsubmittable : Submittable bytes := by
        have := hzero.mp hnone
        unfold Submittable
        omega
      split
      . exact ⟨_, rfl, by simpa using hsubmittable⟩
      . exact ⟨_, rfl, by simpa using hsubmittable⟩
    . next hreplaced =>
      refine ⟨_, rfl, ?_⟩
      have hfirst := mt hzero.mpr hreplaced
      rw [not_or] at hfirst
      unfold Submittable
      rw [beq_iff_eq, hend]
      simp only [hguess.right, Bool.false_eq_true, hfirst.left, hfirst.right, false_or]
      constructor
      . exact Or.inr
      . intro h
        cases h with
        | inl hshort => omega
        | inr hends => exact hends
  . next hguess =>
    refine ⟨_, rfl, ?_⟩
    simp only [Bool.and_eq_true, decide_eq_true_eq, Bool.not_eq_true', not_and,
      Bool.not_eq_false] at hguess
    simp only [true_iff]
    cases Nat.lt_or_ge 4 bytes.length with
    | inl hlong =>
      have := hguess hlong
      rw [isAnnexB_append _ _ (by omega)] at this
      exact Or.inr (Or.inl this)
    | inr hshort => exact Or.inl hshort

end AnnexB

/- A chain as C has it: all lengths are ints, and no entry is longer than its data. -/
def Entry.WellFormed (entry : Entry) : Prop :=
  -2 ^ 31 ≤ entry.length ∧ ∀ data, entry.data = some data → entry.length ≤ data.length

structure DecodeUnit.WellFormed (decodeUnit : DecodeUnit) : Prop where
  fullLength : decodeUnit.fullLength < 2 ^ 31
  bufferList : ∀ entry, entry ∈ decodeUnit.bufferList → entry.WellFormed

namespace Submission

def total (entries : List Entry) : Nat :=
  (entries.map fun entry => u32 entry.length).sum

def payload (entries : List Entry) : List UInt8 :=
  entries.flatMap fun entry => Bytes.read (entry.data.getD []) 0 (u32 entry.length)

/-
What a unit that finds a free slot needs to get to `vdecDecodeAu`.
-/
structure Processable (s : Submission) (decodeUnit : DecodeUnit) (memalign : Nat → Option Block)
    : Prop where
  grows : s.decodeBufferSize < needed decodeUnit → memalign (newSize decodeUnit) ≠ none
  data : ∀ entry, entry ∈ decodeUnit.bufferList → entry.data ≠ none
  length : total decodeUnit.bufferList = u32 decodeUnit.fullLength
  framing : AnnexB.Submittable (payload decodeUnit.bufferList)

/-
The units for which the return code is right: those that get to `vdecDecodeAu`, and those of a good
length that the saturated queue turns away.
-/
def Answers (s : Submission) (decodeUnit : Option DecodeUnit) (memalign : Nat → Option Block)
    : Prop :=
  ∃ du,
    decodeUnit = some du
      ∧
    0 < du.fullLength ∧ u32 du.fullLength ≤ vdecDecodeBufMax
      ∧
    (vdecBufCount ≤ s.vdecAuPending ∨ s.Processable du memalign)

/- The hardware has taken one unit more. -/
def Accepts (s t : Submission) : Prop :=
  ∃ au, t.hardware = s.hardware ++ [au]

/- What the counter and the front index have to be after a call. -/
structure Counts (s t : Submission) : Prop where
  accepted : s.Accepts t
    → t.vdecFront = (s.vdecFront + 1) % vdecBufCount ∧ t.vdecAuPending = s.vdecAuPending + 1
  refused : ¬ s.Accepts t → t.vdecFront = s.vdecFront ∧ t.vdecAuPending = s.vdecAuPending

/- The return code tells whether the unit was accepted, and the state goes with it. -/
structure Agrees (s t : Submission) (code : Int) : Prop where
  ok : code = drOk ↔ s.Accepts t
  needIdr : ¬ s.Accepts t → code = drNeedIdr
  counts : s.Counts t

/- Nothing that a call is about has changed. -/
structure Kept (s t : Submission) : Prop where
  front : t.vdecFront = s.vdecFront
  pending : t.vdecAuPending = s.vdecAuPending
  hardware : t.hardware = s.hardware

theorem Kept.trans {s t u : Submission} (hst : s.Kept t) (htu : t.Kept u) : s.Kept u where
  front := by rw [htu.front, hst.front]
  pending := by rw [htu.pending, hst.pending]
  hardware := by rw [htu.hardware, hst.hardware]

theorem Kept.not_accepts {s t : Submission} (h : s.Kept t) : ¬ s.Accepts t := by
  intro haccepts
  have ⟨au, hau⟩ := haccepts
  have hlength := congrArg List.length hau
  rw [h.hardware, List.length_append, List.length_singleton] at hlength
  omega

theorem Kept.counts {s t : Submission} (h : s.Kept t) : s.Counts t where
  accepted := by
    intro haccepts
    exact absurd haccepts h.not_accepts
  refused _ := ⟨h.front, h.pending⟩

/- A unit that is dropped with `DR_OK` is what the return code must not hide. -/
theorem Kept.not_agrees {s t : Submission} (h : s.Kept t) : ¬ s.Agrees t drOk := by
  intro hagrees
  apply h.not_accepts (hagrees.ok.mp rfl)

theorem Kept.agrees {s t : Submission} (h : s.Kept t) : s.Agrees t drNeedIdr where
  ok := by
    constructor
    . intro hcode
      exact absurd hcode (by decide)
    . intro haccepts
      exact absurd haccepts h.not_accepts
  needIdr _ := rfl
  counts := h.counts

theorem agrees_of_accepted {s t : Submission} {au : VdecAU} (hhardware : t.hardware = s.hardware ++ [au])
    (hfront : t.vdecFront = (s.vdecFront + 1) % vdecBufCount)
    (hpending : t.vdecAuPending = s.vdecAuPending + 1)
    : s.Agrees t drOk := by
  have haccepts : s.Accepts t := ⟨au, hhardware⟩
  constructor
  . simp [haccepts]
  . intro hrefused
    exact absurd haccepts hrefused
  . constructor
    . intro _
      exact ⟨hfront, hpending⟩
    . intro hrefused
      exact absurd haccepts hrefused

/- The statements of a call from the `k`-th on, each with what it meets. -/
def statements (env : Nat → Env) (k n : Nat) : List Event :=
  (List.range' k n).map fun i => .proceed (env i)

/- The thread gets to a return code by its own statements. -/
def Settles (v s : Submission) (env : Nat → Env) (k : Nat) (post : Submission → Int → Prop) : Prop :=
  ∃ n t code,
    (machine v).runFrom s (statements env k n) = some t ∧ t.pc = .returned code ∧ post t code

section

variable {v s t : Submission} {env : Nat → Env} {k : Nat} {post : Submission → Int → Prop}

theorem settles_of_returned {code : Int} (hpc : s.pc = .returned code) (hpost : post s code)
    : Settles v s env k post := by
  exact ⟨0, s, code, rfl, hpc, hpost⟩

theorem settles_of_proceed (hstep : s.proceed (env k) = some t) (h : Settles v t env (k + 1) post)
    : Settles v s env k post := by
  have ⟨n, u, code, hrun, hpc, hpost⟩ := h
  refine ⟨n + 1, u, code, ?_, hpc, hpost⟩
  unfold statements at hrun ⊢
  rw [List.range'_succ, List.map_cons, Transition.Machine.runFrom_cons]
  simp only [machine, step] at hrun ⊢
  rw [hstep]
  exact hrun

/- There is only one state in which a call returns. -/
theorem eq_of_returned {m n : Nat} {t u : Submission} {first second : Int}
    (ht : (machine v).runFrom s (statements env k m) = some t) (htpc : t.pc = .returned first)
    (hu : (machine v).runFrom s (statements env k n) = some u) (hupc : u.pc = .returned second)
    : t = u := by
  induction m generalizing s k n with
  | zero =>
    cases n with
    | zero =>
      simp only [statements, List.range'_zero, List.map_nil, Transition.Machine.runFrom_nil,
        Option.some.injEq] at ht hu
      rw [← ht, ← hu]
    | succ n =>
      simp only [statements, List.range'_zero, List.map_nil, Transition.Machine.runFrom_nil,
        Option.some.injEq] at ht
      unfold statements at hu
      rw [List.range'_succ, List.map_cons, Transition.Machine.runFrom_cons, ht] at hu
      simp [machine, step, proceed, htpc] at hu
  | succ m ih =>
    unfold statements at ht
    rw [List.range'_succ, List.map_cons] at ht
    have ⟨next, hnext, ht⟩ := Transition.Machine.runFrom_cons_eq_some ht
    cases n with
    | zero =>
      simp only [statements, List.range'_zero, List.map_nil, Transition.Machine.runFrom_nil,
        Option.some.injEq] at hu
      rw [hu] at hnext
      simp [machine, step, proceed, hupc] at hnext
    | succ n =>
      unfold statements at hu
      rw [List.range'_succ, List.map_cons] at hu
      have ⟨next', hnext', hu⟩ := Transition.Machine.runFrom_cons_eq_some hu
      rw [hnext, Option.some.injEq] at hnext'
      rw [← hnext'] at hu
      apply ih ht hu

/- Entries that all have data and fit into the rest of the buffer. -/
def Fits (entries : List Entry) (room : Nat) : Prop :=
  (∀ entry, entry ∈ entries → entry.data ≠ none) ∧ total entries ≤ room

theorem u32_le_length {entry : Entry} {data : List UInt8} (h : entry.WellFormed)
    (hdata : entry.data = some data) (hsmall : u32 entry.length < 2 ^ 31)
    : u32 entry.length ≤ data.length := by
  have hlower := h.left
  have hupper := h.right data hdata
  unfold u32 at hsmall ⊢
  omega

theorem fits_cons_iff {entry : Entry} (entries : List Entry) {room : Nat}
    (hdata : entry.data ≠ none) (hroom : u32 entry.length ≤ room)
    : Fits (entry :: entries) room ↔ Fits entries (room - u32 entry.length) := by
  unfold Fits total
  rw [List.forall_mem_cons, List.map_cons, List.sum_cons]
  constructor
  . intro h
    exact ⟨h.left.right, by omega⟩
  . intro h
    exact ⟨⟨hdata, h.left⟩, by omega⟩

/-
The loop over the chain either gets through or leaves with `DR_OK` and everything as it was.
-/
theorem settles_copy (decodeUnit : DecodeUnit) (entries : List Entry) (pre rest : List UInt8)
    (hpc : s.pc = .copying decodeUnit entries pre.length) (hmem : s.decodeBuffer = pre ++ rest)
    (hlength : (pre ++ rest).length = s.decodeBufferSize) (hsize : s.decodeBufferSize < 2 ^ 31)
    (hentries : ∀ entry, entry ∈ entries → entry.WellFormed)
    (hdrop : ¬ Fits entries rest.length → ∀ t, s.Kept t → post t drOk)
    (hpass : Fits entries rest.length → ∀ t rest', s.Kept t
      → t.pc = .copying decodeUnit [] (pre ++ payload entries).length
      → t.decodeBuffer = pre ++ payload entries ++ rest'
      → Settles v t env (k + entries.length) post)
    : Settles v s env k post := by
  induction entries generalizing s k pre rest with
  | nil =>
    apply hpass _ s rest ⟨rfl, rfl, rfl⟩
    . simpa [payload] using hpc
    . simpa [payload] using hmem
    . simp [Fits, total]
  | cons entry entries ih =>
    rw [List.length_append] at hlength
    have hstep : s.proceed (env k) = some (s.copyEntry decodeUnit (entry :: entries) pre.length) := by
      simp only [proceed, hpc]
    cases hdata : entry.data with
    | none =>
      -- the copy loop is left without an error
      have hnull : ¬ Fits (entry :: entries) rest.length := by
        intro hfits
        apply hfits.left entry List.mem_cons_self hdata
      have hleave : s.copyEntry decodeUnit (entry :: entries) pre.length
          = { s with pc := .returned drOk } := by
        simp only [copyEntry, hdata]
      rw [hleave] at hstep
      apply settles_of_proceed hstep
      exact settles_of_returned rfl (hdrop hnull _ ⟨rfl, rfl, rfl⟩)
    | some data =>
      cases Nat.lt_or_ge rest.length (u32 entry.length) with
      | inl hlong =>
        -- so it is when the entry does not fit into the rest of the buffer
        have hlarge : ¬ Fits (entry :: entries) rest.length := by
          intro hfits
          have htotal := hfits.right
          rw [total, List.map_cons, List.sum_cons] at htotal
          omega
        have hleave : s.copyEntry decodeUnit (entry :: entries) pre.length
            = { s with pc := .returned drOk } := by
          simp only [copyEntry, hdata]
          rw [if_pos (by omega)]
        rw [hleave] at hstep
        apply settles_of_proceed hstep
        exact settles_of_returned rfl (hdrop hlarge _ ⟨rfl, rfl, rfl⟩)
      | inr hroom =>
        have henough := u32_le_length (hentries entry List.mem_cons_self) hdata (by omega)
        have hsrc : (Bytes.read data 0 (u32 entry.length)).length = u32 entry.length := by
          rw [Bytes.read, List.drop_zero, List.length_take]
          omega
        have hcopy : s.copyEntry decodeUnit (entry :: entries) pre.length
            = { s.store (pre ++ Bytes.read data 0 (u32 entry.length)
                  ++ rest.drop (u32 entry.length)) with
                pc := .copying decodeUnit entries
                  (pre ++ Bytes.read data 0 (u32 entry.length)).length } := by
          simp only [copyEntry, hdata]
          rw [if_neg (by omega), hmem, Bytes.write_after, hsrc, List.length_append, hsrc,
            List.append_assoc]
        have hfits := fits_cons_iff entries (by rw [hdata]; simp : entry.data ≠ none) hroom
        have hpayload : pre ++ Bytes.read data 0 (u32 entry.length) ++ payload entries
            = pre ++ payload (entry :: entries) := by
          simp [payload, hdata]
        rw [hcopy] at hstep
        apply settles_of_proceed hstep
        -- the entry is copied, and the loop goes on behind it
        apply ih (pre ++ Bytes.read data 0 (u32 entry.length)) (rest.drop (u32 entry.length)) rfl
        . simp [decodeBuffer, store]
        . simp only [List.length_append, List.length_drop, hsrc, decodeBufferSize, store] at hlength ⊢
          omega
        . exact hsize
        . intro other hother
          apply hentries
          apply List.mem_cons_of_mem _ hother
        . intro hnot t hkept
          apply hdrop
          . rw [hfits]
            rwa [List.length_drop] at hnot
          . exact ⟨hkept.front, hkept.pending, hkept.hardware⟩
        . intro hpasses t rest' hkept htpc htmem
          rw [hpayload] at htpc htmem
          rw [List.length_drop] at hpasses
          have hnext := hpass (hfits.mpr hpasses) t rest'
            ⟨hkept.front, hkept.pending, hkept.hardware⟩ htpc htmem
          rw [List.length_cons, Nat.add_comm entries.length, ← Nat.add_assoc] at hnext
          exact hnext

/-
The conversion hands the unit on if it can, otherwise the call leaves with `DR_OK`.
-/
theorem settles_frame (bytes rest : List UInt8) (hpc : s.pc = .framing bytes.length)
    (hmem : s.decodeBuffer = bytes ++ rest) (hlength : bytes.length < 2 ^ 31)
    (hdrop : ¬ AnnexB.Submittable bytes → ∀ t, s.Kept t → post t drOk)
    (hpass : AnnexB.Submittable bytes → ∀ t au, s.Kept t → t.pc = .submitting au
      → Settles v t env (k + 1) post)
    : Settles v s env k post := by
  have ⟨c, hconvert, hsubmit⟩ := AnnexB.convert_submit_iff bytes rest s.decodeBufferSize hlength
  rw [← hmem] at hconvert
  have hstep : s.proceed (env k) = s.frame bytes.length := by
    simp only [proceed, hpc]
  unfold frame at hstep
  rw [hconvert] at hstep
  dsimp only at hstep
  split at hstep
  . next htrue =>
    apply settles_of_proceed hstep
    exact hpass (hsubmit.mp htrue) _ _ ⟨rfl, rfl, rfl⟩ rfl
  . next hfalse =>
    apply settles_of_proceed hstep
    exact settles_of_returned rfl (hdrop (mt hsubmit.mpr hfalse) _ ⟨rfl, rfl, rfl⟩)

/- A unit that the decoder refuses gives its slot back. -/
theorem settles_reject (hpc : s.pc = .rejected)
    (hpost : ∀ t, t.vdecFront = s.vdecFront → t.vdecAuPending = s.vdecAuPending - 1
      → t.hardware = s.hardware → post t drNeedIdr)
    : Settles v s env k post := by
  have hstep : s.proceed (env k)
      = some
          { s with
            stats := s.stats.noteDropped (env k).clock
            vdecAuPending := s.vdecAuPending - 1
            pc := .returned drNeedIdr } := by
    simp only [proceed, hpc]
  apply settles_of_proceed hstep
  exact settles_of_returned rfl (hpost _ rfl rfl rfl)

theorem settles_accept (hpc : s.pc = .accepted)
    (hpost : ∀ t, t.vdecFront = (s.vdecFront + 1) % vdecBufCount
      → t.vdecAuPending = s.vdecAuPending → t.hardware = s.hardware → post t drOk)
    : Settles v s env k post := by
  have hstep : s.proceed (env k)
      = some
          { s with
            stats := s.stats.pushSubmitTime (env k).clock
            vdecBack := s.vdecFront
            vdecFront := (s.vdecFront + 1) % vdecBufCount
            pc := .returned drOk } := by
    simp only [proceed, hpc]
  apply settles_of_proceed hstep
  exact settles_of_returned rfl (hpost _ rfl rfl rfl)

/-
From the increment on the call is answered by what `vdecDecodeAu` says, at the first attempt or, if the
decoder is busy, at the second one.
-/
theorem settles_submit {au : VdecAU} (hpc : s.pc = .submitting au) (hpost : ∀ t code, s.Agrees t code
      → post t code)
    : Settles v s env k post := by
  have hcount : s.proceed (env k)
      = some { s with vdecAuPending := s.vdecAuPending + 1, pc := .decoding au } := by
    simp only [proceed, hpc]
  apply settles_of_proceed hcount
  have haccept : ∀ (u : Submission) (k : Nat), u.pc = .accepted → u.vdecFront = s.vdecFront
      → u.vdecAuPending = s.vdecAuPending + 1 → u.hardware = s.hardware ++ [au]
      → Settles v u env k post := by
    intro u k hupc hfront hpending hhardware
    apply settles_accept hupc
    intro t htfront htpending hthardware
    apply hpost
    apply agrees_of_accepted
    . rw [hthardware, hhardware]
    . rw [htfront, hfront]
    . rw [htpending, hpending]
  have hreject : ∀ (u : Submission) (k : Nat), u.pc = .rejected → u.vdecFront = s.vdecFront
      → u.vdecAuPending = s.vdecAuPending + 1 → u.hardware = s.hardware
      → Settles v u env k post := by
    intro u k hupc hfront hpending hhardware
    apply settles_reject hupc
    intro t htfront htpending hthardware
    apply hpost
    apply Kept.agrees
    constructor
    . rw [htfront, hfront]
    . omega
    . rw [hthardware, hhardware]
  have hattempt : ∀ (u : Submission) (rc : UInt32) (failed : Pc) (k : Nat),
      u.vdecFront = s.vdecFront → u.vdecAuPending = s.vdecAuPending + 1 → u.hardware = s.hardware
      → (rc ≠ 0 → Settles v { u with pc := failed } env k post)
      → Settles v (u.decodeAu au rc failed) env k post := by
    intro u rc failed k hfront hpending hhardware hfailed
    unfold decodeAu
    split
    . apply haccept
      . rfl
      . exact hfront
      . exact hpending
      . rw [hhardware]
    . next hrc => exact hfailed hrc
  apply settles_of_proceed rfl
  refine hattempt _ _ _ _ rfl rfl rfl ?_
  intro _
  split
  . apply settles_of_proceed rfl
    refine hattempt _ _ _ _ rfl rfl rfl ?_
    intro _
    exact hreject _ _ rfl rfl rfl rfl
  . exact hreject _ _ rfl rfl rfl rfl

/-
The check of the queue, the growth of the front buffer and the loop over the chain.
-/

theorem settles_check (decodeUnit : DecodeUnit) (hpc : s.pc = .entered decodeUnit)
    (hfull : vdecBufCount ≤ s.vdecAuPending → ∀ t, s.Kept t → post t drNeedIdr)
    (hfree : s.vdecAuPending < vdecBufCount
      → Settles v { s with pc := .growing decodeUnit } env (k + 1) post)
    : Settles v s env k post := by
  have hstep : s.proceed (env k) = some (s.checkPending decodeUnit (env k).clock) := by
    simp only [proceed, hpc]
  apply settles_of_proceed hstep
  unfold checkPending
  split
  . next hpending => exact settles_of_returned rfl (hfull hpending _ ⟨rfl, rfl, rfl⟩)
  . next hpending =>
    apply hfree
    omega

theorem settles_grow (decodeUnit : DecodeUnit) (hpc : s.pc = .growing decodeUnit)
    (hneeded : needed decodeUnit ≤ newSize decodeUnit)
    (hmemalign : ∀ block, (env k).memalign (newSize decodeUnit) = some block
      → s.isFresh block (newSize decodeUnit) = true)
    (hfails : s.decodeBufferSize < needed decodeUnit → (env k).memalign (newSize decodeUnit) = none
      → ∀ t, s.Kept t → post t drOk)
    (hgrows : (s.decodeBufferSize < needed decodeUnit
        → (env k).memalign (newSize decodeUnit) ≠ none)
      → ∀ t, s.Kept t → t.pc = .copying decodeUnit decodeUnit.bufferList 0
        → needed decodeUnit ≤ t.decodeBufferSize → s.proceed (env k) = some t
        → Settles v t env (k + 1) post)
    : Settles v s env k post := by
  have hstep : s.proceed (env k) = s.grow decodeUnit (env k).memalign := by
    simp only [proceed, hpc]
  unfold grow at hstep
  split at hstep
  . next hsmall =>
    cases hblock : (env k).memalign (newSize decodeUnit) with
    | none =>
      rw [hblock] at hstep
      apply settles_of_proceed hstep
      exact settles_of_returned rfl (hfails hsmall hblock _ ⟨rfl, rfl, rfl⟩)
    | some block =>
      rw [hblock] at hstep
      dsimp only at hstep
      rw [if_pos (hmemalign block hblock)] at hstep
      apply settles_of_proceed hstep
      refine hgrows ?_ _ ⟨rfl, rfl, rfl⟩ rfl ?_ hstep
      . intro _
        rw [hblock]
        simp
      . simpa [decodeBufferSize, replaceFront] using hneeded
  . next hlarge =>
    apply settles_of_proceed hstep
    refine hgrows ?_ _ ⟨rfl, rfl, rfl⟩ rfl (Nat.le_of_not_lt hlarge) hstep
    intro hsmall
    exact absurd hsmall hlarge

end

theorem Kept.accepts_iff {s u t : Submission} (h : s.Kept u) : u.Accepts t ↔ s.Accepts t := by
  unfold Accepts
  rw [h.hardware]

theorem Kept.agrees_of_agrees {s u t : Submission} {code : Int} (h : s.Kept u)
    (hagrees : u.Agrees t code)
    : s.Agrees t code := by
  constructor
  . rw [← h.accepts_iff]
    exact hagrees.ok
  . rw [← h.accepts_iff]
    exact hagrees.needIdr
  . constructor
    . rw [← h.accepts_iff, ← h.front, ← h.pending]
      exact hagrees.counts.accepted
    . rw [← h.accepts_iff, ← h.front, ← h.pending]
      exact hagrees.counts.refused

theorem kept_of_enter (s : Submission) (decodeUnit : Option DecodeUnit) (clock : Clock)
    : s.Kept (s.enter decodeUnit clock) := by
  unfold enter
  split
  . exact ⟨rfl, rfl, rfl⟩
  . split
    . exact ⟨rfl, rfl, rfl⟩
    . exact ⟨rfl, rfl, rfl⟩

theorem length_payload {entries : List Entry} (hentries : ∀ entry, entry ∈ entries → entry.WellFormed)
    (hdata : ∀ entry, entry ∈ entries → entry.data ≠ none) (hsmall : total entries < 2 ^ 31)
    : (payload entries).length = total entries := by
  induction entries with
  | nil => rfl
  | cons entry entries ih =>
    rw [List.forall_mem_cons] at hentries hdata
    have ⟨data, hsome⟩ := Option.ne_none_iff_exists'.mp hdata.left
    simp only [total, List.map_cons, List.sum_cons] at hsmall ⊢
    have henough := u32_le_length hentries.left hsome (by omega)
    have hrest := ih hentries.right hdata.right (by unfold total; omega)
    unfold payload total at hrest
    unfold payload
    rw [List.flatMap_cons, List.length_append, hrest, hsome, Bytes.read, List.drop_zero,
      List.length_take, Option.getD_some]
    omega

/-
A call that has found a free slot. Each exit on the way to the decoder is one of the requirements of
`Processable` that does not hold.
-/
theorem settles_growing {v s : Submission} {env : Nat → Env} {k : Nat}
    {post : Submission → Int → Prop} (decodeUnit : DecodeUnit) (hbounded : s.Bounded)
    (hsizes : ∀ slot, slot < vdecBufCount → s.vdecBufSize slot ≤ largestBuffer)
    (hpc : s.pc = .growing decodeUnit) (hunit : decodeUnit.WellFormed)
    (hpositive : 0 < decodeUnit.fullLength) (hmax : u32 decodeUnit.fullLength ≤ vdecDecodeBufMax)
    (hmemalign : ∀ block, (env k).memalign (newSize decodeUnit) = some block
      → s.isFresh block (newSize decodeUnit) = true)
    (hdrop : ¬ s.Processable decodeUnit (env k).memalign → ∀ t, s.Kept t → post t drOk)
    (hagree : s.Processable decodeUnit (env k).memalign → ∀ t code, s.Agrees t code → post t code)
    : Settles v s env k post := by
  have hint := hunit.fullLength
  unfold vdecDecodeBufMax at hmax
  have hneeded : u32 decodeUnit.fullLength ≤ needed decodeUnit
      ∧ needed decodeUnit ≤ newSize decodeUnit := by
    unfold newSize needed
    omega
  apply settles_grow decodeUnit hpc hneeded.right hmemalign
  . intro hsmall hnone t ht
    apply hdrop _ t ht
    intro hprocessable
    apply hprocessable.grows hsmall hnone
  . intro hgrows u hu hupc husize hstep
    have hubounded := step_bounded hbounded (.proceed (env k)) hstep
    have hevent : s.step (.proceed (env k)) = some u := hstep
    have hularge := step_largestBuffer hbounded hsizes hevent u.vdecFront hubounded.front
    have hulength : u.decodeBuffer.length = u.decodeBufferSize :=
      hubounded.allocated.length _ hubounded.front
    have husmall : u.decodeBufferSize < 2 ^ 31 := by
      unfold largestBuffer vdecDecodeBufMax at hularge
      unfold decodeBufferSize
      omega
    -- from here on the buffer has room for the whole unit
    apply settles_copy decodeUnit decodeUnit.bufferList [] u.decodeBuffer hupc rfl hulength husmall
      hunit.bufferList
    . intro hnot t ht
      apply hdrop _ t (hu.trans ht)
      intro hprocessable
      apply hnot
      refine ⟨hprocessable.data, ?_⟩
      rw [hprocessable.length]
      omega
    . intro hfits w rest hw hwpc hwmem
      have hlength := length_payload hunit.bufferList hfits.left (by have := hfits.right; omega)
      rw [List.nil_append] at hwpc hwmem
      have hstep : ∀ i, w.proceed (env i)
          = some (w.copyEntry decodeUnit [] (payload decodeUnit.bufferList).length) := by
        intro i
        simp only [proceed, hwpc]
      apply settles_of_proceed (hstep _)
      simp only [copyEntry]
      split
      . next hbad =>
        -- the entries did not add up to the unit
        apply settles_of_returned rfl
        apply hdrop
        . intro hprocessable
          have htotal := hprocessable.length
          have hpositive' : 0 < u32 decodeUnit.fullLength := by
            unfold u32
            omega
          omega
        . exact (hu.trans hw).trans ⟨rfl, rfl, rfl⟩
      . next hgood =>
        rw [not_or, Decidable.not_not] at hgood
        have hkept : s.Kept { w with pc := .framing (payload decodeUnit.bufferList).length } :=
          (hu.trans hw).trans ⟨rfl, rfl, rfl⟩
        apply settles_frame (payload decodeUnit.bufferList) rest
        . rfl
        . exact hwmem
        . omega
        . intro hnot t ht
          apply hdrop _ t (hkept.trans ht)
          intro hprocessable
          apply hnot hprocessable.framing
        . intro hsubmittable t au ht htpc
          apply settles_submit htpc
          intro t' code hagrees
          apply hagree
          . exact ⟨hgrows, hfits.left, hlength.symm.trans hgood.right, hsubmittable⟩
          . exact (hkept.trans ht).agrees_of_agrees hagrees

/-
A refused argument is not answered with `DR_NEED_IDR`.
-/
theorem enter_eq (s : Submission) (decodeUnit : Option DecodeUnit) (clock : Clock)
    : (∃ du, decodeUnit = some du ∧ 0 < du.fullLength ∧ u32 du.fullLength ≤ vdecDecodeBufMax
          ∧ s.enter decodeUnit clock
              = { s with stats := s.stats.noteSubmitted clock, pc := .entered du })
        ∨
      (¬ ∃ du, decodeUnit = some du ∧ 0 < du.fullLength ∧ u32 du.fullLength ≤ vdecDecodeBufMax)
          ∧ (s.enter decodeUnit clock).pc = .returned drOk := by
  unfold enter
  split
  . right
    simp
  . next du =>
    split
    . next hbad =>
      right
      refine ⟨?_, rfl⟩
      intro hgood
      have ⟨du', hdu, hpositive, hmax⟩ := hgood
      injection hdu with hdu
      rw [← hdu] at hpositive hmax
      omega
    . next hgood =>
      left
      refine ⟨du, rfl, ?_, ?_, rfl⟩
      . omega
      . omega

/-
Every call returns, the counter and the front index are right whatever happens, and the return code is
right exactly for the units that are answered.
-/
theorem return_code_agrees_iff (v s : Submission) (decodeUnit : Option DecodeUnit) (clock : Clock)
    (env : Nat → Env) (hbounded : s.Bounded)
    (hsizes : ∀ slot, slot < vdecBufCount → s.vdecBufSize slot ≤ largestBuffer)
    (hrest : s.pc.atRest = true) (hunit : ∀ du, decodeUnit = some du → du.WellFormed)
    (hmemalign : ∀ du, decodeUnit = some du
      → ∀ block, (env 1).memalign (newSize du) = some block → s.isFresh block (newSize du) = true)
    : ∃ n t code,
        (machine v).runFrom s (.call decodeUnit clock :: statements env 0 n) = some t
          ∧
        t.pc = .returned code
          ∧
        s.Counts t
          ∧
        (s.Agrees t code ↔ s.Answers decodeUnit (env 1).memalign) := by
  -- both directions in one condition on the exit that is taken
  let post : Submission → Int → Prop := fun t code =>
    s.Counts t ∧ (s.Agrees t code ↔ s.Answers decodeUnit (env 1).memalign)
  have hdrop : ¬ s.Answers decodeUnit (env 1).memalign → ∀ t, s.Kept t → post t drOk := by
    intro hnot t hkept
    exact ⟨hkept.counts, iff_of_false hkept.not_agrees hnot⟩
  have hagree : s.Answers decodeUnit (env 1).memalign
      → ∀ t code, s.Agrees t code → post t code := by
    intro hanswers t code hagrees
    exact ⟨hagrees.counts, iff_of_true hagrees hanswers⟩
  have hcall : s.step (.call decodeUnit clock) = some (s.enter decodeUnit clock) := by
    unfold step
    cases hpc : s.pc <;> simp_all [Pc.atRest]
  have hkept := kept_of_enter s decodeUnit clock
  have hsettles : Settles v (s.enter decodeUnit clock) env 0 post := by
    cases enter_eq s decodeUnit clock with
    | inr hbad =>
      apply settles_of_returned hbad.right
      apply hdrop _ _ hkept
      intro hanswers
      have ⟨du, hdu, hpositive, hmax, _⟩ := hanswers
      apply hbad.left ⟨du, hdu, hpositive, hmax⟩
    | inl hgood =>
      have ⟨du, hdu, hpositive, hmax, henter⟩ := hgood
      let growing : Submission :=
        { s with stats := s.stats.noteSubmitted clock, pc := .growing du }
      have hgrowing : growing.Bounded := hbounded.move rfl rfl rfl rfl hmax
      have hsame : s.Kept growing := ⟨rfl, rfl, rfl⟩
      rw [henter] at hkept ⊢
      apply settles_check du rfl
      . intro hfull t ht
        apply hagree _ t _ (hkept.trans ht).agrees
        exact ⟨du, hdu, hpositive, hmax, Or.inl hfull⟩
      . intro hfree
        show Settles v growing env 1 post
        apply settles_growing du hgrowing hsizes rfl (hunit du hdu) hpositive hmax (hmemalign du hdu)
        . intro hnot t ht
          apply hdrop _ t (hsame.trans ht)
          intro hanswers
          have ⟨du', hdu', _, _, hcase⟩ := hanswers
          rw [hdu, Option.some.injEq] at hdu'
          rw [← hdu'] at hcase
          cases hcase with
          | inl hfull => exact absurd hfree (Int.not_lt.mpr hfull)
          | inr h => exact hnot ⟨h.grows, h.data, h.length, h.framing⟩
        . intro h t code hagrees
          apply hagree _ t code (hsame.agrees_of_agrees hagrees)
          exact ⟨du, hdu, hpositive, hmax, Or.inr ⟨h.grows, h.data, h.length, h.framing⟩⟩
  have ⟨n, t, code, hrun, hpc, hpost⟩ := hsettles
  refine ⟨n, t, code, ?_, hpc, hpost⟩
  rw [Transition.Machine.runFrom_cons]
  simp only [machine] at hrun ⊢
  rw [hcall]
  exact hrun

/- The decoder is busy at the first attempt and takes the unit at the second one. -/
theorem return_code_agrees_iff_retry
    : ∃ n t code,
        (machine (fourBuffers 128)).runFrom (machine (fourBuffers 128)).init
            (.call (some shortUnit) default
              :: statements (fun i => answering (if i = 6 then vdecErrorBusy else 0)) 0 n)
          = some t
          ∧
        t.pc = .returned code
          ∧
        (machine (fourBuffers 128)).init.Agrees t code := by
  let s := (machine (fourBuffers 128)).init
  have hunit : shortUnit.WellFormed := by
    constructor
    . decide
    . intro entry hentry
      rw [shortUnit, List.mem_singleton] at hentry
      rw [hentry]
      refine ⟨by decide, ?_⟩
      intro data hdata
      injection hdata with hdata
      rw [← hdata]
      decide
  obtain ⟨n, t, code, hrun, hpc, _, hagrees⟩ := return_code_agrees_iff (fourBuffers 128) s
    (some shortUnit) default (fun i => answering (if i = 6 then vdecErrorBusy else 0))
    (bounded_of_reachable (fourBuffers_allocated 128) (Transition.Machine.Reachable.init _))
    (by intro slot _; show 128 ≤ largestBuffer; decide) rfl
    (by intro du hdu; injection hdu with hdu; rw [← hdu]; exact hunit)
    (by intro du _ block hblock; simp [answering] at hblock)
  refine ⟨n, t, code, hrun, hpc, hagrees.mpr ⟨shortUnit, rfl, by decide, by decide, Or.inr ?_⟩⟩
  constructor
  . intro hsmall
    exact absurd hsmall (by decide)
  . simp [shortUnit]
  . decide
  . left
    decide

/-
A unit that is larger than the front buffer meets an allocator without memory: it is not decoded, and
the call returns `DR_OK`.
-/
theorem ungrown_buffer_hidden
    : ¬ ∀ (v s : Submission) (decodeUnit : Option DecodeUnit) (clock : Clock) (env : Nat → Env),
        s.Bounded → (∀ slot, slot < vdecBufCount → s.vdecBufSize slot ≤ largestBuffer)
          → s.pc.atRest = true → (∀ du, decodeUnit = some du → du.WellFormed)
          → (∀ du, decodeUnit = some du → ∀ block, (env 1).memalign (newSize du) = some block
              → s.isFresh block (newSize du) = true)
          → ∃ n t code,
              (machine v).runFrom s (.call decodeUnit clock :: statements env 0 n) = some t
                ∧
              t.pc = .returned code
                ∧
              s.Agrees t code := by
  intro hclaim
  obtain ⟨data, hdata⟩ : ∃ data : List UInt8, data.length = 524288 := by
    exact ⟨List.replicate 524288 0, List.length_replicate⟩
  let decodeUnit : DecodeUnit := ⟨524288, [⟨some data, 524288⟩]⟩
  have hunit : decodeUnit.WellFormed := by
    constructor
    . show (524288 : Int) < 2 ^ 31
      decide
    . intro entry hentry
      rw [List.mem_singleton] at hentry
      rw [hentry]
      constructor
      . show -2 ^ 31 ≤ (524288 : Int)
        decide
      . intro data' hdata'
        injection hdata' with hdata'
        rw [← hdata', hdata]
        show (524288 : Int) ≤ (524288 : Nat)
        decide
  let s := (machine (fourBuffers (512 * 1024))).init
  obtain ⟨n, t, code, hrun, hpc, hagrees⟩ := hclaim (fourBuffers (512 * 1024)) s (some decodeUnit)
    default (fun _ => answering 0)
    (bounded_of_reachable (fourBuffers_allocated _) (Transition.Machine.Reachable.init _))
    (by intro slot _; show 512 * 1024 ≤ largestBuffer; decide) rfl
    (by intro du hdu; injection hdu with hdu; rw [← hdu]; exact hunit)
    (by intro du _ block hblock; simp [answering] at hblock)
  have hfails : (machine (fourBuffers (512 * 1024))).runFrom s
        (.call (some decodeUnit) default :: statements (fun _ => answering 0) 0 2)
      = some { s with pc := .returned drOk } := by
    rfl
  have ⟨entered, hentered, hrun⟩ := Transition.Machine.runFrom_cons_eq_some hrun
  have ⟨entered', hentered', hfails⟩ := Transition.Machine.runFrom_cons_eq_some hfails
  rw [hentered, Option.some.injEq] at hentered'
  rw [← hentered'] at hfails
  have ht := eq_of_returned hrun hpc hfails rfl
  rw [ht] at hpc hagrees
  injection hpc with hcode
  rw [← hcode] at hagrees
  have hkept : s.Kept { s with pc := .returned drOk } := ⟨rfl, rfl, rfl⟩
  apply hkept.not_agrees hagrees

end Submission
end Video
