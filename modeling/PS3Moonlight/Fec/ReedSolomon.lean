import PS3Moonlight.Fec.InvertMat
import PS3Moonlight.Lib.ErasureCode

/-!
This module contains the Reed-Solomon code of the streams: the matrices of `reed_solomon_new`, the
encoder and the reconstruction of lost shards.
-/

namespace Fec

def DATA_SHARDS_MAX : Nat := 255

/- The numbers of shards are the indices of the type; `m` has the data rows above the parity. -/
structure ReedSolomon (ds ps : Nat) where
  m : Vector (Vector Gf ds) (ds + ps)
  parity : Vector (Vector Gf ds) ps

def multiply1 {ar ac bc : Nat} (a : Vector (Vector Gf ac) ar) (b : Vector (Vector Gf bc) ac)
    : Vector (Vector Gf bc) ar :=
  Vector.ofFn fun r => Vector.ofFn fun c =>
    (List.finRange ac).foldl (fun tg i => tg + (a.get r).get i * (b.get i).get c) 0

/- `inverse[(parity_shards + i) ^ j]` -/
def parityEntry (ps i j : Nat) : Gf :=
  Gf.ofByte (generateGf.inverse ((ps + i) ^^^ j))

/- The identity, with rows of zeros below it. -/
def vm (ds ps : Nat) : Vector (Vector Gf ds) (ds + ps) :=
  Vector.ofFn fun row => Vector.ofFn fun col => if row.val = col.val then 1 else 0

def topMatrix (ds ps : Nat) : Rows ds :=
  Vector.ofFn fun row => (vm ds ps).get (row.castAdd ps)

def shardMatrix (ds ps : Nat) : Vector (Vector Gf ds) (ds + ps) :=
  let m := multiply1 (vm ds ps) (invertMat (topMatrix ds ps)).src
  Vector.ofFn fun row =>
    Fin.addCases (fun i => m.get (i.castAdd ps))
      (fun j => Vector.ofFn fun i => parityEntry ps i j) row

def reedSolomonNew (ds ps : Nat) : Option (ReedSolomon ds ps) :=
  if ds + ps > DATA_SHARDS_MAX ∨ ds = 0 ∨ ps = 0 then
    none
  else
    some
      { m := shardMatrix ds ps
        parity := Vector.ofFn fun j => (shardMatrix ds ps).get (j.natAdd ds) }

section

variable {ds ps sz : Nat}

/-
Each output is built from all inputs, the first one overwriting what stood there.
-/
def codeColumn (matrixRows : Nat → Vector Gf ds) (inputs : Vector (Vector Gf sz) ds)
    (outputs : List (Vector Gf sz)) (c : Fin ds) : List (Vector Gf sz) :=
  outputs.mapIdx fun iRow output =>
    if c.val = 0 then
      mul output (inputs.get c) ((matrixRows iRow).get c)
    else
      addmul output (inputs.get c) ((matrixRows iRow).get c)

def codeSomeShards (matrixRows : Nat → Vector Gf ds) (inputs : Vector (Vector Gf sz) ds)
    (outputs : List (Vector Gf sz)) : List (Vector Gf sz) :=
  (List.finRange ds).foldl (codeColumn matrixRows inputs) outputs

/- The sender's side; the buffers of the parity are overwritten. -/
def reedSolomonEncode (rs : ReedSolomon ds ps) (data : Vector (Vector Gf sz) ds)
    (fec : Vector (Vector Gf sz) ps) : List (Vector Gf sz) :=
  codeSomeShards (fun j => rs.parity.getD j (Vector.replicate ds 0)) data fec.toList

/- One pass of the sort: the smallest one comes to the front; whether anything was swapped. -/
def bubble (first : Fin ds) (rest : List (Fin ds)) : Fin ds × List (Fin ds) × Bool :=
  match rest with
  | [] => (first, [], false)
  | next :: rest =>
    if first > next then
      let (smallest, rest, _) := bubble next rest
      (smallest, first :: rest, true)
    else
      let (smallest, rest, swap) := bubble first rest
      (smallest, next :: rest, swap)

def sortErased (n : Nat) (erased : List (Fin ds)) : List (Fin ds) :=
  match n, erased with
  | n + 1, first :: rest =>
    match bubble first rest with
    | (smallest, rest, true) => smallest :: sortErased n rest
    | (_, _, false) => first :: rest
  | _, erased => erased

/- The data shards that arrived: the erased ones are skipped in step with the index. -/
def okRows (indices erased : List (Fin ds)) : List (Fin ds) :=
  match indices with
  | [] => []
  | i :: indices =>
    match erased with
    | [] => i :: okRows indices []
    | e :: erased => if i = e then okRows indices erased else i :: okRows indices (e :: erased)

/- `memmove` of row `erased[i]` to row `i`, one after the other in the same matrix. -/
def moveRows (rows : Nat → Vector Gf ds) (erased : List (Fin ds)) (i : Nat)
    : Nat → Vector Gf ds :=
  match erased with
  | [] => rows
  | e :: erased => moveRows (store rows i (rows e)) erased (i + 1)

def writeShards (data : Vector (Vector Gf sz) ds) (erased : List (Fin ds))
    (outputs : List (Vector Gf sz)) : Vector (Vector Gf sz) ds :=
  match erased, outputs with
  | e :: erased, output :: outputs => writeShards (data.set e.val output e.isLt) erased outputs
  | _, _ => data

def vectorOfList {α : Type} {n : Nat} (xs : List α) (h : xs.length = n) : Vector α n :=
  ⟨xs.toArray, by simpa using h⟩

/- The rows of the decoding matrix with their shards: first the data that arrived, then parity. -/
def decodeRows (rs : ReedSolomon ds ps) (dataBlocks : Vector (Vector Gf sz) ds)
    (fecBlocks : List (Fin ps × Vector Gf sz)) (erased : List (Fin ds))
    : List (Vector Gf ds × Vector Gf sz) :=
  let dataRows := (okRows (List.finRange ds) erased).map fun i =>
    (rs.m.get (i.castAdd ps), dataBlocks.get i)
  let fecRows := (fecBlocks.take (ds - dataRows.length)).map fun block =>
    (rs.m.get (block.1.natAdd ds), block.2)
  dataRows ++ fecRows

def reedSolomonDecode (rs : ReedSolomon ds ps) (dataBlocks : Vector (Vector Gf sz) ds)
    (fecBlocks : List (Fin ps × Vector Gf sz)) (erasedBlocks : List (Fin ds))
    : Vector (Vector Gf sz) ds × Int :=
  let erased := sortErased erasedBlocks.length erasedBlocks
  let rows := decodeRows rs dataBlocks fecBlocks erased
  if h : rows.length = ds then
    let dataDecodeMatrix : Rows ds := vectorOfList (rows.map Prod.fst) (by simpa using h)
    let subShards : Vector (Vector Gf sz) ds := vectorOfList (rows.map Prod.snd) (by simpa using h)
    let inverted := (invertMat dataDecodeMatrix).src
    let matrixRows := moveRows (fun r => inverted.getD r (Vector.replicate ds 0)) erased 0
    let outputs := codeSomeShards matrixRows subShards (erased.map dataBlocks.get)
    (writeShards dataBlocks erased outputs, 0)
  else
    (dataBlocks, -1)

/-
A mark is set on a shard that is missing. As in every call of the source the shards are those of
one block.
-/
def reedSolomonReconstruct (rs : ReedSolomon ds ps) (dataBlocks : Vector (Vector Gf sz) ds)
    (fecBlocks : Vector (Vector Gf sz) ps) (marks : Fin ds → Bool) (fecMarks : Fin ps → Bool)
    : Vector (Vector Gf sz) ds × Int :=
  let erased := (List.finRange ds).filter marks
  if erased.length > 0 then
    let fecNos := ((List.finRange ps).filter fun j => !fecMarks j).take erased.length
    if erased.length = fecNos.length then
      let decFec := fecNos.map fun j => (j, fecBlocks.get j)
      ((reedSolomonDecode rs dataBlocks decFec erased).1, 0)
    else
      (dataBlocks, -1)
  else
    (dataBlocks, 0)

/-
The matrices
-/

theorem foldl_add_finRange (n : Nat) (start : Gf) (f : Fin n → Gf)
    : (List.finRange n).foldl (fun acc i => acc + f i) start = start + ∑ i, f i := by
  induction n generalizing start with
  | zero => simp
  | succ n ih =>
    rw [List.finRange_succ, List.foldl_cons, List.foldl_map, ih, Fin.sum_univ_succ, add_assoc]

theorem get_multiply1 {ar ac bc : Nat} (a : Vector (Vector Gf ac) ar) (b : Vector (Vector Gf bc) ac)
    (r : Fin ar) (c : Fin bc)
    : ((multiply1 a b).get r).get c = ∑ i, (a.get r).get i * (b.get i).get c := by
  unfold multiply1
  rw [get_ofFn, get_ofFn, foldl_add_finRange, zero_add]

def parityMatrix (rs : ReedSolomon ds ps) : Matrix (Fin ps) (Fin ds) Gf :=
  fun j i => (rs.parity.get j).get i

/- What the decoder relies on. -/
structure ReedSolomon.Valid (rs : ReedSolomon ds ps) : Prop where
  data_pos : 0 < ds
  data_row : ∀ i c, (rs.m.get (Fin.castAdd ps i)).get c = if i = c then 1 else 0
  parity_row : ∀ j, rs.m.get (Fin.natAdd ds j) = rs.parity.get j
  mds : ErasureCode.Mds (parityMatrix rs)

theorem ofNat_xor (m n : Nat)
    : Gf.ofByte (UInt8.ofNat (m ^^^ n)) = Gf.ofByte (UInt8.ofNat m) + Gf.ofByte (UInt8.ofNat n) := by
  rw [Gf.add_def]
  exact congrArg Gf.ofByte (UInt8.ofNat_xor m n)

theorem ofNat_injective {m n : Nat} (hm : m < 256) (hn : n < 256)
    (h : Gf.ofByte (UInt8.ofNat m) = Gf.ofByte (UInt8.ofNat n))
    : m = n := by
  have hnat := congrArg UInt8.toNat h
  simp only [Gf.ofByte, UInt8.toNat_ofNat'] at hnat
  omega

/- The entries are those of a matrix of Cauchy, its points the bytes below all shards. -/
theorem parityEntry_eq (i j : Nat) (h : ps + i < 256) (hj : j < 256)
    : parityEntry ps i j
      = (Gf.ofByte (UInt8.ofNat j) + Gf.ofByte (UInt8.ofNat (ps + i)))⁻¹ := by
  have hlt : (ps + i) ^^^ j < 2 ^ 8 := Nat.xor_lt_two_pow h hj
  rw [add_comm, ← ofNat_xor]
  unfold parityEntry
  show _ = Gf.ofByte (generateGf.inverse (UInt8.ofNat ((ps + i) ^^^ j)).toNat)
  rw [UInt8.toNat_ofNat_of_lt' hlt]

theorem mds_parityEntry (h : ds + ps ≤ DATA_SHARDS_MAX)
    : ErasureCode.Mds (fun (j : Fin ps) (i : Fin ds) => parityEntry ps i j) := by
  unfold DATA_SHARDS_MAX at h
  have hcauchy := ErasureCode.mds_of_cauchy
    (a := fun j : Fin ps => Gf.ofByte (UInt8.ofNat j.val))
    (b := fun i : Fin ds => Gf.ofByte (UInt8.ofNat (ps + i.val)))
    (by
      intro j j' heq
      exact Fin.ext (ofNat_injective (by omega) (by omega) heq))
    (by
      intro i i' heq
      have hval := ofNat_injective (by omega) (by omega) heq
      exact Fin.ext (by omega))
    (by
      intro j i hzero
      -- The sum of two bytes is zero only if they are the same.
      have heq := eq_neg_of_add_eq_zero_left hzero
      have hval := ofNat_injective (m := j.val) (n := ps + i.val) (by omega) (by omega) heq
      omega)
  have hentry : (fun (j : Fin ps) (i : Fin ds) => parityEntry ps i j)
      = Matrix.of fun (j : Fin ps) (i : Fin ds) =>
        (Gf.ofByte (UInt8.ofNat j.val) + Gf.ofByte (UInt8.ofNat (ps + i.val)))⁻¹ := by
    funext j i
    exact parityEntry_eq _ _ (by omega) (by omega)
  rw [hentry]
  exact hcauchy

theorem invertMat_mul {k : Nat} {src : Rows k} (h : IsUnit (toMatrix src))
    : toMatrix (invertMat src).src * toMatrix src = 1 := by
  cases invertMat_cases src with
  | inl hdone => exact hdone.right
  | inr hfailed => exact absurd h hfailed.right

theorem get_topMatrix (ps : Nat) (i c : Fin ds)
    : ((topMatrix ds ps).get i).get c = if i = c then 1 else 0 := by
  unfold topMatrix vm
  rw [get_ofFn, get_ofFn, get_ofFn]
  apply if_congr _ rfl rfl
  rw [Fin.val_castAdd, Fin.ext_iff]

/- The inverse of the identity is the identity. -/
theorem invertMat_topMatrix : toMatrix (invertMat (topMatrix ds ps)).src = 1 := by
  have htop : toMatrix (topMatrix ds ps) = 1 := by
    ext i j
    rw [toMatrix_apply, get_topMatrix, Matrix.one_apply]
  have hinverse := invertMat_mul (htop ▸ isUnit_one)
  rwa [htop, mul_one] at hinverse

theorem get_shardMatrix_data (i c : Fin ds)
    : ((shardMatrix ds ps).get (i.castAdd ps)).get c = if i = c then 1 else 0 := by
  have hvm : ∀ l, ((vm ds ps).get (i.castAdd ps)).get l = if i = l then 1 else 0 := by
    intro l
    rw [← get_topMatrix ps]
    unfold topMatrix
    rw [get_ofFn]
  have hrow : ∀ l, ((invertMat (topMatrix ds ps)).src.get l).get c = if l = c then 1 else 0 := by
    intro l
    rw [← toMatrix_apply, invertMat_topMatrix, Matrix.one_apply]
  unfold shardMatrix
  rw [get_ofFn, Fin.addCases_left, get_multiply1]
  simp only [hvm, hrow]
  simp

theorem get_shardMatrix_parity (j : Fin ps) (i : Fin ds)
    : ((shardMatrix ds ps).get (j.natAdd ds)).get i = parityEntry ps i j := by
  unfold shardMatrix
  rw [get_ofFn, Fin.addCases_right, get_ofFn]

theorem reedSolomonNew_valid {rs : ReedSolomon ds ps} (h : reedSolomonNew ds ps = some rs)
    : rs.Valid := by
  unfold reedSolomonNew at h
  cases Decidable.em (ds + ps > DATA_SHARDS_MAX ∨ ds = 0 ∨ ps = 0) with
  | inl hrefused =>
    rw [if_pos hrefused] at h
    exact absurd h (by simp)
  | inr hshards =>
    rw [if_neg hshards] at h
    rw [not_or] at hshards
    rw [← Option.some_inj.mp h]
    constructor
    . omega
    . exact get_shardMatrix_data
    . intro j
      rw [get_ofFn]
    . have hmds := mds_parityEntry (Nat.le_of_not_gt hshards.left)
      have hparity : (fun (j : Fin ps) (i : Fin ds) => parityEntry ps i j)
          = parityMatrix { m := shardMatrix ds ps
                           parity := Vector.ofFn fun j => (shardMatrix ds ps).get (j.natAdd ds) } := by
        funext j i
        unfold parityMatrix
        rw [get_ofFn, get_shardMatrix_parity]
      rw [← hparity]
      exact hmds

end

end Fec
