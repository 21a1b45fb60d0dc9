import PS3Moonlight.Fec.ReedSolomon

/-!
This module contains the proof that lost shards are reconstructed as they were sent, whichever ones
were lost, as long as the parity that arrived makes up for them.
-/

namespace Fec

variable {ds ps sz : Nat}

/-
Coding a row
-/

def codeStep (row : Vector Gf ds) (inputs : Vector (Vector Gf sz) ds) (output : Vector Gf sz)
    (c : Fin ds) : Vector Gf sz :=
  if c.val = 0 then
    mul output (inputs.get c) (row.get c)
  else
    addmul output (inputs.get c) (row.get c)

theorem getElem?_foldl_codeColumn (matrixRows : Nat → Vector Gf ds)
    (inputs : Vector (Vector Gf sz) ds) (outputs : List (Vector Gf sz)) (cs : List (Fin ds))
    (i : Nat)
    : (cs.foldl (codeColumn matrixRows inputs) outputs)[i]?
      = (outputs[i]?).map fun output => cs.foldl (codeStep (matrixRows i) inputs) output := by
  induction cs generalizing outputs with
  | nil => simp
  | cons c cs ih =>
    rw [List.foldl_cons, ih]
    unfold codeColumn
    rw [List.getElem?_mapIdx, Option.map_map]
    rfl

theorem get_foldl_addmul {n : Nat} (row : Fin n → Gf) (inputs : Fin n → Vector Gf sz)
    (output : Vector Gf sz) (b : Fin sz)
    : ((List.finRange n).foldl (fun output c => addmul output (inputs c) (row c)) output).get b
      = output.get b + ∑ c, row c * (inputs c).get b := by
  have hfold : ∀ cs : List (Fin n), ∀ output : Vector Gf sz,
      (cs.foldl (fun output c => addmul output (inputs c) (row c)) output).get b
        = cs.foldl (fun acc c => acc + row c * (inputs c).get b) (output.get b) := by
    intro cs
    induction cs with
    | nil =>
      intro output
      rfl
    | cons c cs ih =>
      intro output
      rw [List.foldl_cons, List.foldl_cons, ih, get_addmul]
  rw [hfold, foldl_add_finRange]

/-
The first input overwrites the output unless its coefficient is zero, for then nothing is cleared.
-/
theorem get_foldl_codeStep {n : Nat} (row : Vector Gf (n + 1))
    (inputs : Vector (Vector Gf sz) (n + 1)) (output : Vector Gf sz) (hfirst : row.get 0 ≠ 0)
    (b : Fin sz)
    : ((List.finRange (n + 1)).foldl (codeStep row inputs) output).get b
      = ∑ c, row.get c * (inputs.get c).get b := by
  have hzero : codeStep row inputs output 0 = mul output (inputs.get 0) (row.get 0) := by rfl
  have hsucc : ∀ (output : Vector Gf sz) (c : Fin n), codeStep row inputs output c.succ
      = addmul output (inputs.get c.succ) (row.get c.succ) := by
    intro output c
    rfl
  rw [List.finRange_succ, List.foldl_cons, List.foldl_map, hzero]
  simp only [hsucc]
  rw [get_foldl_addmul (fun c : Fin n => row.get c.succ), get_mul _ _ hfirst, Fin.sum_univ_succ]

/-
The order of the rows
-/

theorem bubble_of_le (first : Fin ds) (rest : List (Fin ds)) (h : ∀ x ∈ rest, first ≤ x)
    : bubble first rest = (first, rest, false) := by
  induction rest with
  | nil => rfl
  | cons next rest ih =>
    have hnext := h next List.mem_cons_self
    unfold bubble
    rw [if_neg (not_lt.mpr hnext), ih (fun x hx => h x (List.mem_cons_of_mem next hx))]

theorem sortErased_of_sorted (n : Nat) {erased : List (Fin ds)} (h : erased.Pairwise (· < ·))
    : sortErased n erased = erased := by
  unfold sortErased
  split
  . next first rest =>
    rw [bubble_of_le first rest (fun x hx => Fin.le_of_lt (List.rel_of_pairwise_cons h hx))]
  . rfl

theorem okRows_filter (indices : List (Fin ds)) (marks : Fin ds → Bool) (h : indices.Nodup)
    : okRows indices (indices.filter marks) = indices.filter fun i => !marks i := by
  induction indices with
  | nil => rfl
  | cons i indices ih =>
    have hnodup := List.nodup_cons.mp h
    cases hmark : marks i with
    | true => simp [okRows, hmark, ih hnodup.right]
    | false =>
      have hskip : okRows (i :: indices) (indices.filter marks)
          = i :: okRows indices (indices.filter marks) := by
        cases herased : indices.filter marks with
        | nil => simp [okRows]
        | cons e erased =>
          have hmem : e ∈ indices.filter marks := by
            rw [herased]
            exact List.mem_cons_self
          have hne : i ≠ e := by
            intro heq
            exact hnodup.left (heq ▸ List.mem_of_mem_filter hmem)
          simp [okRows, hne]
      simp [hmark, hskip, ih hnodup.right]

theorem moveRows_of_lt (rows : Nat → Vector Gf ds) (erased : List (Fin ds)) (i j : Nat)
    (h : j < i)
    : moveRows rows erased i j = rows j := by
  induction erased generalizing rows i with
  | nil => rfl
  | cons e erased ih =>
    rw [moveRows, ih _ _ (by omega), store_of_ne _ _ (by omega)]

/- A row moves to the front after all rows that stood before it were read. -/
theorem moveRows_getElem (rows : Nat → Vector Gf ds) (erased : List (Fin ds)) (i k : Nat)
    (hsorted : erased.Pairwise (· < ·)) (hle : ∀ e ∈ erased, i ≤ e.val) (hk : k < erased.length)
    : moveRows rows erased i (i + k) = rows erased[k].val := by
  induction erased generalizing rows i k with
  | nil => exact absurd hk (by simp)
  | cons e erased ih =>
    have hpairs := List.pairwise_cons.mp hsorted
    have he := hle e List.mem_cons_self
    rw [moveRows]
    cases k with
    | zero => exact (moveRows_of_lt _ _ _ _ (by omega)).trans (store_self _ _ _)
    | succ k =>
      have hlength : k < erased.length := by simpa using hk
      have hlater : ∀ x ∈ erased, i + 1 ≤ x.val := by
        intro x hx
        have hlt : e.val < x.val := hpairs.left x hx
        omega
      have hmem := hlater erased[k] (List.getElem_mem hlength)
      have hrest := ih (store rows i (rows e)) (i + 1) k hpairs.right hlater hlength
      rw [List.getElem_cons_succ, ← store_of_ne rows (rows e) (by omega : erased[k].val ≠ i),
        ← hrest]
      congr 1
      omega

theorem get_writeShards (data : Vector (Vector Gf sz) ds) (erased : List (Fin ds))
    (f : Fin ds → Vector Gf sz) (i : Fin ds)
    : (writeShards data erased (erased.map f)).get i = if i ∈ erased then f i else data.get i := by
  induction erased generalizing data with
  | nil => simp [writeShards]
  | cons e erased ih =>
    rw [List.map_cons, writeShards, ih, get_set]
    cases Decidable.em (i ∈ erased) with
    | inl hmem => simp [hmem]
    | inr hmem =>
      cases Decidable.em (i = e) with
      | inl heq => simp [heq]
      | inr hne => simp [hmem, hne]

/-
The decoding matrix
-/

def dot (row : Vector Gf ds) (y : Fin ds → Gf) : Gf :=
  ∑ c, row.get c * y c

theorem get_vectorOfList {α : Type} {n : Nat} (xs : List α) (h : xs.length = n) (i : Fin n)
    : (vectorOfList xs h).get i = xs.get (i.cast h.symm) := by
  rfl

theorem dot_eq_zero_of_valid {rs : ReedSolomon ds ps} (hrs : rs.Valid) (erased : List (Fin ds))
    (fecNos : List (Fin ps)) (hnodup : fecNos.Nodup) (hlength : erased.length ≤ fecNos.length)
    {y : Fin ds → Gf} (hdata : ∀ i, i ∉ erased → y i = 0)
    (hfec : ∀ j ∈ fecNos, dot (rs.parity.get j) y = 0)
    : y = 0 := by
  apply hrs.mds erased.toFinset fecNos.toFinset
  . rw [List.toFinset_card_of_nodup hnodup]
    exact Nat.le_trans (List.toFinset_card_le erased) hlength
  . intro i hi
    exact hdata i (fun hmem => hi (List.mem_toFinset.mpr hmem))
  . intro j hj
    exact hfec j (List.mem_toFinset.mp hj)

theorem dot_data_row {rs : ReedSolomon ds ps} (hrs : rs.Valid) (i : Fin ds) (y : Fin ds → Gf)
    : dot (rs.m.get (i.castAdd ps)) y = y i := by
  unfold dot
  simp only [hrs.data_row]
  simp

/- The rows of the data that arrived and of the parity that makes up for the rest. -/
def knownRows (rs : ReedSolomon ds ps) (dataBlocks : Vector (Vector Gf sz) ds)
    (marks : Fin ds → Bool) (fecBlocks : List (Fin ps × Vector Gf sz))
    : List (Vector Gf ds × Vector Gf sz) :=
  (((List.finRange ds).filter fun i => !marks i).map fun i =>
      (rs.m.get (i.castAdd ps), dataBlocks.get i))
    ++ fecBlocks.map fun block => (rs.m.get (block.1.natAdd ds), block.2)

theorem decodeRows_eq (rs : ReedSolomon ds ps) (dataBlocks : Vector (Vector Gf sz) ds)
    (fecBlocks : List (Fin ps × Vector Gf sz)) (marks : Fin ds → Bool)
    (hlength : fecBlocks.length = ((List.finRange ds).filter marks).length)
    : decodeRows rs dataBlocks fecBlocks ((List.finRange ds).filter marks)
      = knownRows rs dataBlocks marks fecBlocks := by
  unfold decodeRows
  rw [okRows_filter _ _ (List.nodup_finRange ds)]
  have hsum := List.length_eq_length_filter_add (l := List.finRange ds) marks
  rw [List.length_finRange] at hsum
  have htake : fecBlocks.take (ds - ((((List.finRange ds).filter fun i => !marks i).map fun i =>
      (rs.m.get (i.castAdd ps), dataBlocks.get i)).length)) = fecBlocks := by
    rw [List.length_map]
    apply List.take_of_length_le
    omega
  simp only [htake]
  rfl

theorem length_decodeRows (rs : ReedSolomon ds ps) (dataBlocks : Vector (Vector Gf sz) ds)
    (fecBlocks : List (Fin ps × Vector Gf sz)) (marks : Fin ds → Bool)
    (hlength : fecBlocks.length = ((List.finRange ds).filter marks).length)
    : (decodeRows rs dataBlocks fecBlocks ((List.finRange ds).filter marks)).length = ds := by
  have hsum := List.length_eq_length_filter_add (l := List.finRange ds) marks
  rw [List.length_finRange] at hsum
  rw [decodeRows_eq rs dataBlocks fecBlocks marks hlength]
  unfold knownRows
  rw [List.length_append, List.length_map, List.length_map]
  omega

section

variable {rs : ReedSolomon ds ps} {rows : List (Vector Gf ds × Vector Gf sz)}

def rowMatrix (rows : List (Vector Gf ds × Vector Gf sz)) (h : rows.length = ds) : Rows ds :=
  vectorOfList (rows.map Prod.fst) (by simpa using h)

def rowShards (rows : List (Vector Gf ds × Vector Gf sz)) (h : rows.length = ds)
    : Vector (Vector Gf sz) ds :=
  vectorOfList (rows.map Prod.snd) (by simpa using h)

theorem mulVec_rowMatrix (h : rows.length = ds) (y : Fin ds → Gf) (r : Fin ds)
    : (Matrix.mulVec (toMatrix (rowMatrix rows h)) y) r = dot (rows.get (r.cast h.symm)).1 y := by
  unfold Matrix.mulVec dotProduct dot
  apply Finset.sum_congr rfl
  intro c _
  show ((rowMatrix rows h).get r).get c * y c = (rows.get (r.cast h.symm)).1.get c * y c
  unfold rowMatrix
  rw [get_vectorOfList]
  simp

theorem forall_rows (q : Vector Gf ds × Vector Gf sz → Prop) (h : rows.length = ds)
    (hq : ∀ r : Fin ds, q (rows.get (r.cast h.symm)))
    : ∀ row ∈ rows, q row := by
  intro row hrow
  obtain ⟨r, hr⟩ := List.get_of_mem hrow
  rw [← hr]
  exact hq (r.cast h)

theorem forall_tail (q : Vector Gf ds × Vector Gf sz → Prop) (h : rows.length = ds)
    (hq : ∀ r : Fin ds, r.val ≠ 0 → q (rows.get (r.cast h.symm)))
    : ∀ row ∈ rows.tail, q row := by
  cases rows with
  | nil => simp
  | cons first rest =>
    intro row hrow
    obtain ⟨r, hr⟩ := List.get_of_mem hrow
    rw [← hr]
    exact hq (r.succ.cast h) (Nat.succ_ne_zero r.val)

end

section

variable {rs : ReedSolomon ds ps} (dataBlocks : Vector (Vector Gf sz) ds) (marks : Fin ds → Bool)
  (fecBlocks : List (Fin ps × Vector Gf sz))

theorem knownRows_kernel (hrs : rs.Valid) (hnodup : (fecBlocks.map Prod.fst).Nodup)
    (hlength : fecBlocks.length = ((List.finRange ds).filter marks).length) {y : Fin ds → Gf}
    (h : ∀ row ∈ knownRows rs dataBlocks marks fecBlocks, dot row.1 y = 0)
    : y = 0 := by
  apply dot_eq_zero_of_valid hrs ((List.finRange ds).filter marks) _ hnodup (by simp [hlength])
  . intro i hi
    have hmark : marks i = false := by simpa using hi
    rw [← dot_data_row hrs i y]
    apply h (rs.m.get (i.castAdd ps), dataBlocks.get i)
    apply List.mem_append_left
    exact List.mem_map_of_mem (by simp [hmark])
  . intro j hj
    obtain ⟨block, hblock, hfst⟩ := List.mem_map.mp hj
    rw [← hfst, ← hrs.parity_row]
    apply h (rs.m.get (block.1.natAdd ds), block.2)
    apply List.mem_append_right
    exact List.mem_map_of_mem hblock

/-
Without the first row the rest still determines the data, if besides an erased shard is known: so
no erased shard is combined without the first row.
-/
theorem knownRows_tail_kernel (hrs : rs.Valid) (hnodup : (fecBlocks.map Prod.fst).Nodup)
    (hlength : fecBlocks.length = ((List.finRange ds).filter marks).length) {y : Fin ds → Gf}
    {e : Fin ds} (he : marks e = true) (hy : y e = 0)
    (h : ∀ row ∈ (knownRows rs dataBlocks marks fecBlocks).tail, dot row.1 y = 0)
    : y = 0 := by
  have hmem : e ∈ (List.finRange ds).filter marks := by simp [he]
  have herase := List.length_erase_of_mem hmem
  have hother : ∀ i, i ∉ ((List.finRange ds).filter marks).erase e → i ≠ e → marks i = false := by
    intro i hi hne
    cases hmark : marks i with
    | false => rfl
    | true =>
      have hfilter : i ∈ (List.finRange ds).filter marks := by simp [hmark]
      exact absurd ((List.mem_erase_of_ne hne).mpr hfilter) hi
  unfold knownRows at h
  cases hsurvivors : (List.finRange ds).filter fun i => !marks i with
  | nil =>
    rw [hsurvivors] at h
    rw [List.map_nil, List.nil_append, ← List.map_tail] at h
    have hnone : ∀ i, marks i = true := by
      intro i
      cases hmark : marks i with
      | true => rfl
      | false =>
        have hfilter : i ∈ (List.finRange ds).filter fun i => !marks i := by simp [hmark]
        rw [hsurvivors] at hfilter
        exact absurd hfilter (by simp)
    apply dot_eq_zero_of_valid hrs (((List.finRange ds).filter marks).erase e)
      (fecBlocks.tail.map Prod.fst)
    . rw [List.map_tail]
      exact hnodup.tail
    . rw [List.length_map, List.length_tail, herase, hlength]
    . intro i hi
      cases Decidable.em (i = e) with
      | inl heq => rw [heq, hy]
      | inr hne =>
        have hmark := hother i hi hne
        rw [hnone i] at hmark
        exact absurd hmark (by simp)
    . intro j hj
      obtain ⟨block, hblock, hfst⟩ := List.mem_map.mp hj
      rw [← hfst, ← hrs.parity_row]
      exact h _ (List.mem_map_of_mem hblock)
  | cons first survivors =>
    rw [hsurvivors] at h
    rw [List.map_cons, List.cons_append, List.tail_cons] at h
    apply dot_eq_zero_of_valid hrs (first :: ((List.finRange ds).filter marks).erase e) _ hnodup
    . have hpos := List.length_pos_of_mem hmem
      rw [List.length_cons, herase, List.length_map, hlength]
      omega
    . intro i hi
      rw [List.mem_cons, not_or] at hi
      cases Decidable.em (i = e) with
      | inl heq => rw [heq, hy]
      | inr hne =>
        have hfilter : i ∈ (List.finRange ds).filter fun i => !marks i := by
          simp [hother i hi.right hne]
        rw [hsurvivors, List.mem_cons] at hfilter
        rw [← dot_data_row hrs i y]
        apply h (rs.m.get (i.castAdd ps), dataBlocks.get i)
        apply List.mem_append_left
        exact List.mem_map_of_mem (hfilter.resolve_left hi.left)
    . intro j hj
      obtain ⟨block, hblock, hfst⟩ := List.mem_map.mp hj
      rw [← hfst, ← hrs.parity_row]
      apply h (rs.m.get (block.1.natAdd ds), block.2)
      apply List.mem_append_right
      exact List.mem_map_of_mem hblock

/- What was sent, as far as it is known: the data that arrived, and the parity of all data. -/
structure Received (rs : ReedSolomon ds ps) (dataBlocks : Vector (Vector Gf sz) ds)
    (marks : Fin ds → Bool) (fecBlocks : List (Fin ps × Vector Gf sz))
    (sent : Vector (Vector Gf sz) ds) : Prop where
  data : ∀ i, marks i = false → dataBlocks.get i = sent.get i
  fec : ∀ block ∈ fecBlocks, ∀ b,
    block.2.get b = dot (rs.parity.get block.1) fun c => (sent.get c).get b

variable {dataBlocks marks fecBlocks}

theorem Received.rows {sent : Vector (Vector Gf sz) ds} (hrs : rs.Valid)
    (h : Received rs dataBlocks marks fecBlocks sent)
    : ∀ row ∈ knownRows rs dataBlocks marks fecBlocks, ∀ b,
      row.2.get b = dot row.1 fun c => (sent.get c).get b := by
  intro row hrow b
  cases List.mem_append.mp hrow with
  | inl hdata =>
    obtain ⟨i, hi, hrow⟩ := List.mem_map.mp hdata
    have hmark : marks i = false := by simpa using hi
    rw [← hrow, dot_data_row hrs, h.data i hmark]
  | inr hfec =>
    obtain ⟨block, hblock, hrow⟩ := List.mem_map.mp hfec
    rw [← hrow, hrs.parity_row, h.fec block hblock]

/- The matrix has an inverse, and so its rows for the erased shards give them back. -/
theorem rowMatrix_inverse (hrs : rs.Valid) (hnodup : (fecBlocks.map Prod.fst).Nodup)
    (hlength : fecBlocks.length = ((List.finRange ds).filter marks).length)
    (h : (knownRows rs dataBlocks marks fecBlocks).length = ds)
    : toMatrix (invertMat (rowMatrix (knownRows rs dataBlocks marks fecBlocks) h)).src
      * toMatrix (rowMatrix (knownRows rs dataBlocks marks fecBlocks) h) = 1 := by
  apply invertMat_mul
  rw [← Matrix.mulVec_injective_iff_isUnit]
  intro y y' heq
  rw [← sub_eq_zero]
  apply knownRows_kernel dataBlocks marks fecBlocks hrs hnodup hlength
  apply forall_rows (fun row => dot row.1 (y - y') = 0) h
  intro r
  have hzero : Matrix.mulVec (toMatrix (rowMatrix (knownRows rs dataBlocks marks fecBlocks) h))
      (y - y') = 0 := by
    rw [Matrix.mulVec_sub, sub_eq_zero]
    exact heq
  rw [← mulVec_rowMatrix h, hzero]
  rfl

theorem rowMatrix_inverse_first (hrs : rs.Valid) (hnodup : (fecBlocks.map Prod.fst).Nodup)
    (hlength : fecBlocks.length = ((List.finRange ds).filter marks).length)
    (h : (knownRows rs dataBlocks marks fecBlocks).length = ds) {e i : Fin ds}
    (he : marks e = true) (hfirst : i.val = 0)
    : ((invertMat (rowMatrix (knownRows rs dataBlocks marks fecBlocks) h)).src.get e).get i
      ≠ 0 := by
  intro hzero
  have hinverse := mul_eq_one_comm.mp (rowMatrix_inverse hrs hnodup hlength h)
  -- The column of the inverse that the matrix takes to the first unit vector.
  let y : Fin ds → Gf := fun c =>
    toMatrix (invertMat (rowMatrix (knownRows rs dataBlocks marks fecBlocks) h)).src c i
  have hcolumn : ∀ r, dot ((knownRows rs dataBlocks marks fecBlocks).get (r.cast h.symm)).1 y
      = if r = i then 1 else 0 := by
    intro r
    have hentry := congrFun (congrFun hinverse r) i
    rw [Matrix.one_apply] at hentry
    rw [← mulVec_rowMatrix, ← hentry]
    rfl
  have hkernel : y = 0 := by
    apply knownRows_tail_kernel dataBlocks marks fecBlocks hrs hnodup hlength he hzero
    apply forall_tail (fun row => dot row.1 y = 0) h
    intro r hr
    rw [hcolumn, if_neg]
    intro heq
    exact hr (heq ▸ hfirst)
  have hone := hcolumn i
  rw [if_pos rfl, hkernel] at hone
  simp [dot] at hone

theorem getD_eq_get {α : Type} {n : Nat} (xs : Vector α n) (i : Fin n) (x : α)
    : xs.getD i.val x = xs.get i := by
  simp [Vector.getD, Array.getD, get_eq_getElem]

theorem get_ext {α : Type} {n : Nat} {xs ys : Vector α n} (h : ∀ i, xs.get i = ys.get i)
    : xs = ys := by
  apply Vector.ext
  intro i hi
  exact h ⟨i, hi⟩

/- The row of an erased shard, applied to the shards that are known, is what was sent. -/
theorem decodeOutput_eq {sent : Vector (Vector Gf sz) ds} (hrs : rs.Valid)
    (hnodup : (fecBlocks.map Prod.fst).Nodup)
    (hlength : fecBlocks.length = ((List.finRange ds).filter marks).length)
    (hsent : Received rs dataBlocks marks fecBlocks sent)
    (h : (knownRows rs dataBlocks marks fecBlocks).length = ds) {e : Fin ds} (he : marks e = true)
    (output : Vector Gf sz)
    : (List.finRange ds).foldl
        (codeStep ((invertMat (rowMatrix (knownRows rs dataBlocks marks fecBlocks) h)).src.get e)
          (rowShards (knownRows rs dataBlocks marks fecBlocks) h)) output
      = sent.get e := by
  apply get_ext
  intro b
  have hshards : ∀ c, ((rowShards (knownRows rs dataBlocks marks fecBlocks) h).get c).get b
      = Matrix.mulVec (toMatrix (rowMatrix (knownRows rs dataBlocks marks fecBlocks) h))
        (fun i => (sent.get i).get b) c := by
    intro c
    have hrow := hsent.rows hrs _ (List.get_mem (knownRows rs dataBlocks marks fecBlocks)
      (c.cast h.symm)) b
    rw [mulVec_rowMatrix, ← hrow]
    unfold rowShards
    rw [get_vectorOfList]
    simp
  have hfold : ((List.finRange ds).foldl
        (codeStep ((invertMat (rowMatrix (knownRows rs dataBlocks marks fecBlocks) h)).src.get e)
          (rowShards (knownRows rs dataBlocks marks fecBlocks) h)) output).get b
      = ∑ c, ((invertMat (rowMatrix (knownRows rs dataBlocks marks fecBlocks) h)).src.get e).get c
        * ((rowShards (knownRows rs dataBlocks marks fecBlocks) h).get c).get b := by
    have hfirst := fun first : Fin ds =>
      rowMatrix_inverse_first (i := first) hrs hnodup hlength h he
    cases ds with
    | zero => exact e.elim0
    | succ n => exact get_foldl_codeStep _ _ _ (hfirst 0 rfl) b
  calc _
    _ = Matrix.mulVec
        (toMatrix (invertMat (rowMatrix (knownRows rs dataBlocks marks fecBlocks) h)).src)
        (Matrix.mulVec (toMatrix (rowMatrix (knownRows rs dataBlocks marks fecBlocks) h))
          fun i => (sent.get i).get b) e := by
      rw [hfold]
      apply Finset.sum_congr rfl
      intro c _
      rw [hshards]
      rfl
    _ = (sent.get e).get b := by
      rw [Matrix.mulVec_mulVec, rowMatrix_inverse hrs hnodup hlength h, Matrix.one_mulVec]

/-
The decoder gives back what was sent: the erased shards from the inverse, the others untouched.
-/
theorem reedSolomonDecode_eq {sent : Vector (Vector Gf sz) ds} (hrs : rs.Valid)
    (hnodup : (fecBlocks.map Prod.fst).Nodup)
    (hlength : fecBlocks.length = ((List.finRange ds).filter marks).length)
    (hsent : Received rs dataBlocks marks fecBlocks sent)
    : reedSolomonDecode rs dataBlocks fecBlocks ((List.finRange ds).filter marks) = (sent, 0) := by
  have hsorted : ((List.finRange ds).filter marks).Pairwise (· < ·) :=
    (List.pairwise_lt_finRange ds).filter marks
  have h : (knownRows rs dataBlocks marks fecBlocks).length = ds := by
    rw [← decodeRows_eq rs dataBlocks fecBlocks marks hlength]
    exact length_decodeRows rs dataBlocks fecBlocks marks hlength
  have houtputs : codeSomeShards
      (moveRows (fun r => (invertMat (rowMatrix (knownRows rs dataBlocks marks fecBlocks) h)).src.getD
        r (Vector.replicate ds 0)) ((List.finRange ds).filter marks) 0)
      (rowShards (knownRows rs dataBlocks marks fecBlocks) h)
      (((List.finRange ds).filter marks).map dataBlocks.get)
      = ((List.finRange ds).filter marks).map sent.get := by
    apply List.ext_getElem?
    intro k
    unfold codeSomeShards
    rw [getElem?_foldl_codeColumn, List.getElem?_map, List.getElem?_map, Option.map_map]
    cases hk : ((List.finRange ds).filter marks)[k]? with
    | none => rfl
    | some e =>
      obtain ⟨hlt, hget⟩ := List.getElem?_eq_some_iff.mp hk
      have hmark : marks e = true := by
        have hmem := List.mem_of_getElem? hk
        simpa using hmem
      have hrow := moveRows_getElem
        (fun r => (invertMat (rowMatrix (knownRows rs dataBlocks marks fecBlocks) h)).src.getD
          r (Vector.replicate ds 0)) ((List.finRange ds).filter marks) 0 k hsorted
        (fun _ _ => Nat.zero_le _) hlt
      rw [Nat.zero_add, hget] at hrow
      simp only [Option.map_some, Function.comp_apply]
      rw [hrow, getD_eq_get, decodeOutput_eq hrs hnodup hlength hsent h hmark]
  have hdecode : reedSolomonDecode rs dataBlocks fecBlocks ((List.finRange ds).filter marks)
      = (writeShards dataBlocks ((List.finRange ds).filter marks)
        (((List.finRange ds).filter marks).map sent.get), 0) := by
    unfold reedSolomonDecode
    simp only [sortErased_of_sorted _ hsorted, decodeRows_eq rs dataBlocks fecBlocks marks hlength]
    rw [dif_pos h, ← houtputs]
    rfl
  rw [hdecode]
  congr 1
  apply get_ext
  intro i
  rw [get_writeShards]
  split
  . rfl
  . next hi => exact hsent.data i (by simpa using hi)

end

/- The parity that the encoder writes, whatever stood in its buffers. -/
theorem reedSolomonEncode_getElem? {rs : ReedSolomon ds ps} (hrs : rs.Valid)
    (data : Vector (Vector Gf sz) ds) (fec : Vector (Vector Gf sz) ps) (j : Fin ps)
    : ∃ shard, (reedSolomonEncode rs data fec)[j.val]? = some shard
      ∧ ∀ b, shard.get b = dot (rs.parity.get j) fun c => (data.get c).get b := by
  have hbuffer : fec.toList[j.val]? = some (fec.get j) := by
    simp [get_eq_getElem]
  unfold reedSolomonEncode codeSomeShards
  rw [getElem?_foldl_codeColumn, hbuffer, getD_eq_get]
  refine ⟨_, rfl, ?_⟩
  intro b
  have hfirst := fun i => hrs.mds.entry_ne_zero j i
  have hpos := hrs.data_pos
  cases ds with
  | zero => exact absurd hpos (by decide)
  | succ n => exact get_foldl_codeStep _ _ _ (hfirst 0) b

theorem reedSolomonReconstruct_eq {rs : ReedSolomon ds ps} (hrs : rs.Valid)
    {dataBlocks sent : Vector (Vector Gf sz) ds} {fecBlocks : Vector (Vector Gf sz) ps}
    {marks : Fin ds → Bool} {fecMarks : Fin ps → Bool}
    (hdata : ∀ i, marks i = false → dataBlocks.get i = sent.get i)
    (hfec : ∀ j, fecMarks j = false → ∀ b,
      (fecBlocks.get j).get b = dot (rs.parity.get j) fun c => (sent.get c).get b)
    (henough : ((List.finRange ds).filter marks).length
      ≤ ((List.finRange ps).filter fun j => !fecMarks j).length)
    : reedSolomonReconstruct rs dataBlocks fecBlocks marks fecMarks = (sent, 0) := by
  unfold reedSolomonReconstruct
  simp only
  cases Decidable.em (((List.finRange ds).filter marks).length > 0) with
  | inl hlost =>
    have hnos : (((List.finRange ps).filter fun j => !fecMarks j).take
        ((List.finRange ds).filter marks).length).length
        = ((List.finRange ds).filter marks).length := by
      rw [List.length_take]
      omega
    have hpairs : ((((List.finRange ps).filter fun j => !fecMarks j).take
        ((List.finRange ds).filter marks).length).map fun j => (j, fecBlocks.get j)).map Prod.fst
        = ((List.finRange ps).filter fun j => !fecMarks j).take
          ((List.finRange ds).filter marks).length := by
      rw [List.map_map]
      exact List.map_id _
    have hsent : Received rs dataBlocks marks ((((List.finRange ps).filter fun j =>
        !fecMarks j).take ((List.finRange ds).filter marks).length).map fun j =>
          (j, fecBlocks.get j)) sent := by
      constructor
      . exact hdata
      . intro block hblock
        obtain ⟨j, hj, heq⟩ := List.mem_map.mp hblock
        have hmark : fecMarks j = false := by simpa using List.mem_of_mem_take hj
        rw [← heq]
        exact hfec j hmark
    rw [if_pos hlost, if_pos hnos.symm, reedSolomonDecode_eq hrs _ _ hsent]
    . rw [hpairs]
      exact ((List.nodup_finRange ps).filter _).sublist (List.take_sublist _ _)
    . rw [List.length_map, hnos]
  | inr hnone =>
    rw [if_neg hnone]
    congr 1
    apply get_ext
    intro i
    apply hdata
    cases hmark : marks i with
    | false => rfl
    | true =>
      have hmem : i ∈ (List.finRange ds).filter marks := by simp [hmark]
      exact absurd (List.length_pos_of_mem hmem) hnone

/- With less parity than lost data nothing is written. -/
theorem reedSolomonReconstruct_of_lt (rs : ReedSolomon ds ps)
    (dataBlocks : Vector (Vector Gf sz) ds) (fecBlocks : Vector (Vector Gf sz) ps)
    {marks : Fin ds → Bool} {fecMarks : Fin ps → Bool}
    (h : ((List.finRange ps).filter fun j => !fecMarks j).length
      < ((List.finRange ds).filter marks).length)
    : reedSolomonReconstruct rs dataBlocks fecBlocks marks fecMarks = (dataBlocks, -1) := by
  unfold reedSolomonReconstruct
  simp only
  rw [if_pos (by omega), if_neg]
  rw [List.length_take]
  omega

/-
Whatever is lost on the way, and whatever stands in the buffers of the lost shards and of the
encoder: the data come back if no more data shards are lost than parity shards arrive, else the call
fails and leaves the shards alone.
-/
theorem reconstruct_encode {rs : ReedSolomon ds ps} (hrs : reedSolomonNew ds ps = some rs)
    (sent dataBlocks : Vector (Vector Gf sz) ds) (buffers fecBlocks : Vector (Vector Gf sz) ps)
    (marks : Fin ds → Bool) (fecMarks : Fin ps → Bool)
    (hdata : ∀ i, marks i = false → dataBlocks.get i = sent.get i)
    (hfec : ∀ j, fecMarks j = false →
      (reedSolomonEncode rs sent buffers)[j.val]? = some (fecBlocks.get j))
    : reedSolomonReconstruct rs dataBlocks fecBlocks marks fecMarks
      = if ((List.finRange ds).filter marks).length
          ≤ ((List.finRange ps).filter fun j => !fecMarks j).length then
          (sent, 0)
        else
          (dataBlocks, -1) := by
  have hvalid := reedSolomonNew_valid hrs
  split
  . next henough =>
    apply reedSolomonReconstruct_eq hvalid hdata _ henough
    intro j hj b
    obtain ⟨shard, hshard, hget⟩ := reedSolomonEncode_getElem? hvalid sent buffers j
    rw [hfec j hj] at hshard
    rw [Option.some_inj.mp hshard, hget]
  . next hfew =>
    apply reedSolomonReconstruct_of_lt
    omega

/- Two data shards and one of parity: the second data shard is lost, its buffer holds a `9`. -/
theorem reconstruct_encode_second_lost
    : reedSolomonReconstruct
        { m := shardMatrix 2 1, parity := Vector.ofFn fun j => (shardMatrix 2 1).get (j.natAdd 2) }
        #v[#v[Gf.ofByte 5], #v[Gf.ofByte 9]] #v[#v[Gf.ofByte 136]] (fun i => i == 1) (fun _ => false)
      = (#v[#v[Gf.ofByte 5], #v[Gf.ofByte 7]], 0) := by
  have hencode : (reedSolomonEncode
      { m := shardMatrix 2 1, parity := Vector.ofFn fun j => (shardMatrix 2 1).get (j.natAdd 2) }
      #v[#v[Gf.ofByte 5], #v[Gf.ofByte 7]] #v[#v[0]])[0]? = some #v[Gf.ofByte 136] := by
    decide +kernel
  exact reconstruct_encode rfl #v[#v[Gf.ofByte 5], #v[Gf.ofByte 7]]
    #v[#v[Gf.ofByte 5], #v[Gf.ofByte 9]] #v[#v[0]] #v[#v[Gf.ofByte 136]] (fun i => i == 1)
    (fun _ => false) (by decide) (fun j _ => by rw [Fin.fin_one_eq_zero j]; exact hencode)

end Fec
