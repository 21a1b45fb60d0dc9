import PS3Moonlight.Fec.Galois
import PS3Moonlight.Lib.Elimination

/-!
This module contains `invert_mat`, the elimination with which the decoder inverts the rows of the
code that arrived, and that it inverts every matrix that has an inverse and refuses every other.
-/

namespace Fec

/-
The row operations of the source, on buffers of one size. The second one is given the constant as
the size to clear, so for the constant zero it leaves the destination as it is.
-/
def addmul {sz : Nat} (dst src : Vector Gf sz) (c : Gf) : Vector Gf sz :=
  if c ≠ 0 then Vector.zipWith (fun d s => d + c * s) dst src else dst

def mul {sz : Nat} (dst src : Vector Gf sz) (c : Gf) : Vector Gf sz :=
  if c ≠ 0 then src.map fun s => c * s else dst

theorem get_eq_getElem {α : Type} {k : Nat} (xs : Vector α k) (i : Fin k)
    : xs.get i = xs[i.val] := by
  rfl

theorem get_map {α β : Type} {k : Nat} (xs : Vector α k) (f : α → β) (i : Fin k)
    : (xs.map f).get i = f (xs.get i) := by
  rw [get_eq_getElem, Vector.getElem_map, get_eq_getElem]

theorem get_ofFn {α : Type} {k : Nat} (f : Fin k → α) (i : Fin k)
    : (Vector.ofFn f).get i = f i := by
  rw [get_eq_getElem, Vector.getElem_ofFn]

theorem get_set {α : Type} {k : Nat} (xs : Vector α k) (i j : Fin k) (x : α)
    : (xs.set i x).get j = if j = i then x else xs.get j := by
  rw [get_eq_getElem, Vector.getElem_set]
  apply if_congr _ rfl rfl
  rw [Fin.ext_iff]
  exact eq_comm

theorem get_addmul {sz : Nat} (dst src : Vector Gf sz) (c : Gf) (i : Fin sz)
    : (addmul dst src c).get i = dst.get i + c * src.get i := by
  unfold addmul
  split
  . simp [get_eq_getElem]
  . next hc => simp [not_not.mp hc]

theorem get_mul {sz : Nat} (dst src : Vector Gf sz) {c : Gf} (hc : c ≠ 0) (i : Fin sz)
    : (mul dst src c).get i = c * src.get i := by
  simp [mul, hc, get_eq_getElem]

abbrev Rows (k : Nat) : Type := Vector (Vector Gf k) k

section

variable {k : Nat}

/- What looking for a pivot ends with: a place, an entry of `ipiv` above one, or no place. -/
inductive Search (k : Nat) where
  | found (irow icol : Fin k)
  | singular
  | exhausted
deriving DecidableEq, Repr

def searchColumns (src : Rows k) (ipiv : Vector Nat k) (row : Fin k) (columns : List (Fin k))
    : Search k :=
  match columns with
  | [] => .exhausted
  | ix :: columns =>
    if ipiv.get ix = 0 then
      if (src.get row).get ix ≠ 0 then
        .found row ix
      else
        searchColumns src ipiv row columns
    else if ipiv.get ix > 1 then
      .singular
    else
      searchColumns src ipiv row columns

def searchRows (src : Rows k) (ipiv : Vector Nat k) (rows : List (Fin k)) : Search k :=
  match rows with
  | [] => .exhausted
  | row :: rows =>
    if ipiv.get row ≠ 1 then
      match searchColumns src ipiv row (List.finRange k) with
      | .exhausted => searchRows src ipiv rows
      | result => result
    else
      searchRows src ipiv rows

/- First the diagonal, then everywhere. -/
def findPivot (src : Rows k) (ipiv : Vector Nat k) (col : Fin k) : Search k :=
  if ipiv.get col ≠ 1 ∧ (src.get col).get col ≠ 0 then
    .found col col
  else
    searchRows src ipiv (List.finRange k)

def swapRows (src : Rows k) (irow icol : Fin k) : Rows k :=
  if irow ≠ icol then (src.set irow (src.get icol)).set icol (src.get irow) else src

/- Swaps two columns, one row after the other. -/
def swapColumns (src : Rows k) (c d : Fin k) : Rows k :=
  if c ≠ d then src.map fun row => (row.set c (row.get d)).set d (row.get c) else src

def scalePivotRow (src : Rows k) (icol : Fin k) : Rows k :=
  let c := (src.get icol).get icol
  if c ≠ 1 then
    src.set icol (((src.get icol).set icol 1).map fun x => c⁻¹ * x)
  else
    src

def idRow (icol : Fin k) : Vector Gf k :=
  (Vector.replicate k 0).set icol 1

def eliminate (src : Rows k) (icol : Fin k) : Rows k :=
  if src.get icol ≠ idRow icol then
    Vector.ofFn fun ix =>
      if ix ≠ icol then
        addmul ((src.get ix).set icol 0) (src.get icol) ((src.get ix).get icol)
      else
        src.get ix
  else
    src

/- The matrix, which columns had a pivot, and the exchanged rows, the last ones first. -/
structure InvertState (k : Nat) where
  src : Rows k
  ipiv : Vector Nat k
  indx : List (Fin k × Fin k)

def pivotColumn (e : InvertState k) (irow icol : Fin k) : InvertState k where
  src := eliminate (scalePivotRow (swapRows e.src irow icol) icol) icol
  ipiv := e.ipiv.set icol (e.ipiv.get icol + 1)
  indx := (irow, icol) :: e.indx

def eliminateColumns (e : InvertState k) (columns : List (Fin k)) : InvertState k × Bool :=
  match columns with
  | [] => (e, true)
  | col :: columns =>
    match findPivot e.src e.ipiv col with
    | .found irow icol =>
      let src := swapRows e.src irow icol
      if (src.get icol).get icol = 0 then
        ({ e with src := src }, false)
      else
        eliminateColumns (pivotColumn e irow icol) columns
    | .singular => (e, false)
    | .exhausted => (e, false)

def unscramble (src : Rows k) (indx : List (Fin k × Fin k)) : Rows k :=
  match indx with
  | [] => src
  | (indxr, indxc) :: indx => unscramble (swapColumns src indxr indxc) indx

structure Inverted (k : Nat) where
  src : Rows k
  error : Nat

def invertMat (src : Rows k) : Inverted k :=
  match eliminateColumns ⟨src, Vector.replicate k 0, []⟩ (List.finRange k) with
  | (e, true) => ⟨unscramble e.src e.indx, 0⟩
  | (e, false) => ⟨e.src, 1⟩

/-
What the row operations do to the matrix
-/

def toMatrix (src : Rows k) : Matrix (Fin k) (Fin k) Gf :=
  fun i j => (src.get i).get j

theorem toMatrix_apply (src : Rows k) (i j : Fin k) : toMatrix src i j = (src.get i).get j := by
  rfl

/- Two places exchanged by two writes, the values read before. -/
theorem get_set_set {α : Type} (xs : Vector α k) (r c i : Fin k)
    : ((xs.set r (xs.get c)).set c (xs.get r)).get i = xs.get (Equiv.swap r c i) := by
  rw [get_set, get_set]
  cases Decidable.em (i = c) with
  | inl hc => rw [if_pos hc, hc, Equiv.swap_apply_right]
  | inr hc =>
    rw [if_neg hc]
    cases Decidable.em (i = r) with
    | inl hr => rw [if_pos hr, hr, Equiv.swap_apply_left]
    | inr hr => rw [if_neg hr, Equiv.swap_apply_of_ne_of_ne hr hc]

theorem swapRows_toMatrix (src : Rows k) (irow icol : Fin k)
    : toMatrix (swapRows src irow icol)
      = (toMatrix src).submatrix (Equiv.swap irow icol) id := by
  ext i j
  rw [Matrix.submatrix_apply, toMatrix_apply, toMatrix_apply]
  unfold swapRows
  split
  . rw [get_set_set]
    rfl
  . next heq =>
    rw [not_not.mp heq, Equiv.swap_self]
    rfl

/- The pivot ends up on the diagonal. -/
theorem get_swapRows_pivot (src : Rows k) (irow icol : Fin k)
    : ((swapRows src irow icol).get icol).get icol = (src.get irow).get icol := by
  rw [← toMatrix_apply, swapRows_toMatrix, Matrix.submatrix_apply, Equiv.swap_apply_right]
  rfl

theorem swapColumns_toMatrix (src : Rows k) (c d : Fin k)
    : toMatrix (swapColumns src c d) = (toMatrix src).submatrix id (Equiv.swap c d) := by
  ext i j
  rw [Matrix.submatrix_apply, toMatrix_apply, toMatrix_apply]
  unfold swapColumns
  split
  . rw [get_map, get_set_set]
    rfl
  . next heq =>
    rw [not_not.mp heq, Equiv.swap_self]
    rfl

theorem get_scalePivotRow_self (src : Rows k) (icol j : Fin k)
    : ((scalePivotRow src icol).get icol).get j = Elimination.pivotRow (toMatrix src) icol j := by
  unfold scalePivotRow Elimination.pivotRow
  simp only [toMatrix_apply]
  split
  . rw [get_set, if_pos rfl, get_map, get_set]
  . next hone =>
    have hone := not_not.mp hone
    rw [hone, inv_one, one_mul]
    split
    . next hj => rw [hj, hone]
    . rfl

theorem get_scalePivotRow_of_ne (src : Rows k) {icol i : Fin k} (h : i ≠ icol)
    : (scalePivotRow src icol).get i = src.get i := by
  unfold scalePivotRow
  simp only
  split
  . rw [get_set, if_neg h]
  . rfl

theorem get_idRow (icol j : Fin k) : (idRow icol).get j = if j = icol then 1 else 0 := by
  unfold idRow
  rw [get_set]
  simp [get_eq_getElem]

theorem get_eliminate_self (src : Rows k) (icol : Fin k)
    : (eliminate src icol).get icol = src.get icol := by
  unfold eliminate
  split
  . rw [get_ofFn, if_neg (not_not.mpr rfl)]
  . rfl

theorem get_eliminate_of_ne (src : Rows k) {icol i : Fin k} (h : i ≠ icol) (j : Fin k)
    : ((eliminate src icol).get i).get j
      = (if j = icol then 0 else (src.get i).get j)
        + (src.get i).get icol * (src.get icol).get j := by
  unfold eliminate
  split
  . rw [get_ofFn, if_pos h, get_addmul, get_set]
  . next hid =>
    -- The row of the pivot is that of the identity: nothing would be removed.
    rw [not_not.mp hid, get_idRow]
    split
    . next hj => rw [hj, mul_one, zero_add]
    . rw [mul_zero, add_zero]

/- A byte is its own negative, so what is removed from a row may be added to it. -/
theorem pivot_toMatrix (src : Rows k) (icol : Fin k)
    : toMatrix (eliminate (scalePivotRow src icol) icol)
      = Elimination.pivot (toMatrix src) icol := by
  ext i j
  rw [toMatrix_apply]
  unfold Elimination.pivot
  split
  . next hi =>
    rw [hi, get_eliminate_self, get_scalePivotRow_self]
  . next hi =>
    rw [get_eliminate_of_ne _ hi, get_scalePivotRow_of_ne _ hi, get_scalePivotRow_self]
    rfl

/-
Looking for a pivot
-/

/- What a result says when no column was taken twice: all rows and columns without a pivot count. -/
def Search.Sound (src : Rows k) (ipiv : Vector Nat k) : Search k → Prop
  | .found irow icol =>
    ipiv.get irow = 0 ∧ ipiv.get icol = 0 ∧ (src.get irow).get icol ≠ 0
  | .singular => False
  | .exhausted =>
    ∀ row col, ipiv.get row = 0 → ipiv.get col = 0 → (src.get row).get col = 0

theorem searchColumns_cases (src : Rows k) (ipiv : Vector Nat k) (row : Fin k)
    (columns : List (Fin k)) (hle : ∀ i, ipiv.get i ≤ 1)
    : (∃ icol, searchColumns src ipiv row columns = .found row icol ∧ ipiv.get icol = 0
        ∧ (src.get row).get icol ≠ 0)
      ∨ (searchColumns src ipiv row columns = .exhausted
        ∧ ∀ col ∈ columns, ipiv.get col = 0 → (src.get row).get col = 0) := by
  induction columns with
  | nil => exact Or.inr ⟨rfl, by simp⟩
  | cons ix columns ih =>
    unfold searchColumns
    cases Decidable.em (ipiv.get ix = 0) with
    | inl hfree =>
      rw [if_pos hfree]
      cases Decidable.em ((src.get row).get ix = 0) with
      | inl hzero =>
        rw [if_neg (not_not.mpr hzero)]
        cases ih with
        | inl hfound => exact Or.inl hfound
        | inr hnone =>
          apply Or.inr
          refine ⟨hnone.left, ?_⟩
          intro col hcol hcolfree
          cases List.mem_cons.mp hcol with
          | inl heq => rw [heq, hzero]
          | inr hmem => exact hnone.right col hmem hcolfree
      | inr hzero =>
        rw [if_pos hzero]
        exact Or.inl ⟨ix, rfl, hfree, hzero⟩
    | inr hused =>
      have hle := hle ix
      rw [if_neg hused, if_neg (by omega)]
      cases ih with
      | inl hfound => exact Or.inl hfound
      | inr hnone =>
        apply Or.inr
        refine ⟨hnone.left, ?_⟩
        intro col hcol hcolfree
        cases List.mem_cons.mp hcol with
        | inl heq => exact absurd (heq ▸ hcolfree) hused
        | inr hmem => exact hnone.right col hmem hcolfree

theorem searchRows_cases (src : Rows k) (ipiv : Vector Nat k) (rows : List (Fin k))
    (hle : ∀ i, ipiv.get i ≤ 1)
    : (∃ irow icol, searchRows src ipiv rows = .found irow icol ∧ ipiv.get irow = 0
        ∧ ipiv.get icol = 0 ∧ (src.get irow).get icol ≠ 0)
      ∨ (searchRows src ipiv rows = .exhausted
        ∧ ∀ row ∈ rows, ipiv.get row = 0 → ∀ col, ipiv.get col = 0
          → (src.get row).get col = 0) := by
  induction rows with
  | nil => exact Or.inr ⟨rfl, by simp⟩
  | cons row rows ih =>
    unfold searchRows
    cases Decidable.em (ipiv.get row = 1) with
    | inl hused =>
      rw [if_neg (not_not.mpr hused)]
      cases ih with
      | inl hfound => exact Or.inl hfound
      | inr hnone =>
        apply Or.inr
        refine ⟨hnone.left, ?_⟩
        intro row' hrow hfree
        cases List.mem_cons.mp hrow with
        | inl heq =>
          rw [heq] at hfree
          omega
        | inr hmem => exact hnone.right row' hmem hfree
    | inr hused =>
      have hfree : ipiv.get row = 0 := by
        have hle := hle row
        omega
      rw [if_pos hused]
      cases searchColumns_cases src ipiv row (List.finRange k) hle with
      | inl hfound =>
        obtain ⟨icol, hsearch, hcol, hne⟩ := hfound
        rw [hsearch]
        exact Or.inl ⟨row, icol, rfl, hfree, hcol, hne⟩
      | inr hcolumns =>
        rw [hcolumns.left]
        cases ih with
        | inl hfound => exact Or.inl hfound
        | inr hnone =>
          apply Or.inr
          refine ⟨hnone.left, ?_⟩
          intro row' hrow hrowfree col hcolfree
          cases List.mem_cons.mp hrow with
          | inl heq =>
            rw [heq]
            exact hcolumns.right col (List.mem_finRange col) hcolfree
          | inr hmem => exact hnone.right row' hmem hrowfree col hcolfree

theorem findPivot_sound (src : Rows k) (ipiv : Vector Nat k) (col : Fin k)
    (hle : ∀ i, ipiv.get i ≤ 1)
    : (findPivot src ipiv col).Sound src ipiv := by
  unfold findPivot
  split
  . next hdiagonal =>
    have hfree : ipiv.get col = 0 := by
      have hle := hle col
      have hne := hdiagonal.left
      omega
    exact ⟨hfree, hfree, hdiagonal.right⟩
  . cases searchRows_cases src ipiv (List.finRange k) hle with
    | inl hfound =>
      obtain ⟨irow, icol, hsearch, hrow, hcol, hne⟩ := hfound
      rw [hsearch]
      exact ⟨hrow, hcol, hne⟩
    | inr hnone =>
      rw [hnone.left]
      intro row col' hrow hcol
      exact hnone.right row (List.mem_finRange row) hrow col' hcol

/-
The whole elimination
-/

/- The system whose rows were exchanged so far. -/
def permuted (a : Matrix (Fin k) (Fin k) Gf) (indx : List (Fin k × Fin k))
    : Matrix (Fin k) (Fin k) Gf :=
  match indx with
  | [] => a
  | (irow, icol) :: indx => (permuted a indx).submatrix (Equiv.swap irow icol) id

def solved (ipiv : Vector Nat k) : Finset (Fin k) :=
  Finset.univ.filter fun i => ipiv.get i ≠ 0

theorem mem_solved (ipiv : Vector Nat k) (i : Fin k) : i ∈ solved ipiv ↔ ipiv.get i ≠ 0 := by
  simp [solved]

structure InvertState.Valid (a : Matrix (Fin k) (Fin k) Gf) (e : InvertState k) : Prop where
  ipiv_le : ∀ i, e.ipiv.get i ≤ 1
  exchanged : Elimination.Exchanged (permuted a e.indx) (solved e.ipiv) (toMatrix e.src)

theorem valid_init (src : Rows k)
    : InvertState.Valid (toMatrix src) ⟨src, Vector.replicate k 0, []⟩ := by
  have hzero : ∀ i : Fin k, (Vector.replicate k 0).get i = 0 := by
    intro i
    rw [get_eq_getElem, Vector.getElem_replicate]
  have hempty : solved (Vector.replicate k 0) = ∅ := by
    ext i
    simp [mem_solved, hzero]
  constructor
  . intro i
    simp [hzero i]
  . simp only [hempty]
    exact Elimination.exchanged_empty _

theorem solved_pivotColumn (e : InvertState k) (irow icol : Fin k)
    : solved (pivotColumn e irow icol).ipiv = insert icol (solved e.ipiv) := by
  ext i
  rw [mem_solved, Finset.mem_insert, mem_solved]
  unfold pivotColumn
  simp only [get_set]
  split
  . next hi => simp [hi]
  . next hi => simp [hi]

theorem InvertState.Valid.pivotColumn {a : Matrix (Fin k) (Fin k) Gf} {e : InvertState k}
    {irow icol : Fin k} (h : e.Valid a) (hrow : e.ipiv.get irow = 0) (hcol : e.ipiv.get icol = 0)
    (hne : (e.src.get irow).get icol ≠ 0)
    : (pivotColumn e irow icol).Valid a := by
  have hrowmem : irow ∉ solved e.ipiv := by simp [mem_solved, hrow]
  have hcolmem : icol ∉ solved e.ipiv := by simp [mem_solved, hcol]
  constructor
  . intro i
    unfold Fec.pivotColumn
    simp only [get_set]
    split
    . omega
    . exact h.ipiv_le i
  . rw [solved_pivotColumn]
    have hswap := h.exchanged.swap hrowmem hcolmem
    rw [← swapRows_toMatrix] at hswap
    have hpivot : toMatrix (swapRows e.src irow icol) icol icol ≠ 0 := by
      rw [toMatrix_apply, get_swapRows_pivot]
      exact hne
    have hstep := hswap.pivot hcolmem hpivot
    rw [← pivot_toMatrix] at hstep
    exact hstep

theorem permuted_isUnit {a : Matrix (Fin k) (Fin k) Gf} (indx : List (Fin k × Fin k))
    (h : IsUnit a)
    : IsUnit (permuted a indx) := by
  induction indx with
  | nil => exact h
  | cons step indx ih =>
    obtain ⟨irow, icol⟩ := step
    exact (Matrix.isUnit_submatrix_equiv (Equiv.swap irow icol) (Equiv.refl _)).mpr ih

/- Undoing the exchanges, the last ones first, leaves the inverse of the matrix itself. -/
theorem unscramble_mul {a : Matrix (Fin k) (Fin k) Gf} (indx : List (Fin k × Fin k)) (src : Rows k)
    (h : toMatrix src * permuted a indx = 1)
    : toMatrix (unscramble src indx) * a = 1 := by
  induction indx generalizing src with
  | nil => exact h
  | cons step indx ih =>
    obtain ⟨irow, icol⟩ := step
    apply ih
    rw [swapColumns_toMatrix]
    exact Elimination.mul_eq_one_of_swap h

theorem eliminateColumns_valid {a : Matrix (Fin k) (Fin k) Gf} (columns : List (Fin k))
    (e : InvertState k) (h : e.Valid a)
    (hcard : (solved e.ipiv).card + columns.length = k)
    : ((eliminateColumns e columns).2 = true
        ∧ (eliminateColumns e columns).1.Valid a
        ∧ (solved (eliminateColumns e columns).1.ipiv).card = k)
      ∨ ((eliminateColumns e columns).2 = false ∧ ¬ IsUnit a) := by
  induction columns generalizing e with
  | nil => exact Or.inl ⟨rfl, h, hcard⟩
  | cons col columns ih =>
    have hsound := findPivot_sound e.src e.ipiv col h.ipiv_le
    unfold eliminateColumns
    cases hfind : findPivot e.src e.ipiv col with
    | found irow icol =>
      rw [hfind] at hsound
      obtain ⟨hrow, hcol, hne⟩ := hsound
      simp only
      rw [get_swapRows_pivot, if_neg hne]
      apply ih _ (h.pivotColumn hrow hcol hne)
      rw [solved_pivotColumn, Finset.card_insert_of_notMem (by simp [mem_solved, hcol])]
      rw [List.length_cons] at hcard
      omega
    | singular =>
      rw [hfind] at hsound
      exact absurd hsound id
    | exhausted =>
      rw [hfind] at hsound
      apply Or.inr
      refine ⟨rfl, ?_⟩
      -- Some row is left, and all that is left of it is zero.
      have hleft : ∃ i, i ∉ solved e.ipiv := by
        apply Classical.not_forall.mp
        intro hall
        have huniv : solved e.ipiv = Finset.univ := Finset.eq_univ_iff_forall.mpr hall
        rw [huniv, Finset.card_univ, Fintype.card_fin, List.length_cons] at hcard
        omega
      obtain ⟨i, hi⟩ := hleft
      intro hunit
      apply h.exchanged.not_isUnit hi _ (permuted_isUnit e.indx hunit)
      intro j hj
      rw [mem_solved, not_not] at hi hj
      exact hsound i j hi hj

theorem invertMat_cases (src : Rows k)
    : ((invertMat src).error = 0 ∧ toMatrix (invertMat src).src * toMatrix src = 1)
      ∨ ((invertMat src).error = 1 ∧ ¬ IsUnit (toMatrix src)) := by
  have hcard : (solved (Vector.replicate k 0)).card + (List.finRange k).length = k := by
    have hempty : solved (Vector.replicate k 0) = ∅ := by
      ext i
      simp [mem_solved, get_eq_getElem]
    rw [hempty, Finset.card_empty, List.length_finRange, Nat.zero_add]
  have hrun := eliminateColumns_valid (List.finRange k) ⟨src, Vector.replicate k 0, []⟩
    (valid_init src) hcard
  unfold invertMat
  cases heliminate : eliminateColumns ⟨src, Vector.replicate k 0, []⟩ (List.finRange k) with
  | mk e done =>
    rw [heliminate] at hrun
    cases hrun with
    | inl hdone =>
      obtain ⟨hflag, hvalid, hall⟩ := hdone
      simp only at hflag hvalid hall
      rw [hflag]
      have huniv : solved e.ipiv = Finset.univ := by
        apply Finset.eq_univ_of_card
        rw [hall, Fintype.card_fin]
      have hexchanged := hvalid.exchanged
      rw [huniv] at hexchanged
      exact Or.inl ⟨rfl, unscramble_mul e.indx e.src hexchanged.inverse⟩
    | inr hfailed =>
      obtain ⟨hflag, hsingular⟩ := hfailed
      simp only at hflag
      rw [hflag]
      exact Or.inr ⟨rfl, hsingular⟩

/- On a matrix with an inverse the elimination succeeds and leaves the inverse, else it fails. -/
theorem invertMat_correct (src : Rows k)
    : ((invertMat src).error = 0 ↔ IsUnit (toMatrix src))
      ∧ ((invertMat src).error = 0 → toMatrix (invertMat src).src = (toMatrix src)⁻¹) := by
  cases invertMat_cases src with
  | inl hdone =>
    have hunit : IsUnit (toMatrix src) :=
      (Matrix.isUnit_iff_isUnit_det _).mpr (Matrix.isUnit_det_of_left_inverse hdone.right)
    constructor
    . exact ⟨fun _ => hunit, fun _ => hdone.left⟩
    . intro _
      exact (Matrix.inv_eq_left_inv hdone.right).symm
  | inr hfailed =>
    constructor
    . constructor
      . intro hzero
        rw [hfailed.left] at hzero
        exact absurd hzero (by decide)
      . intro hunit
        exact absurd hunit hfailed.right
    . intro hzero
      rw [hfailed.left] at hzero
      exact absurd hzero (by decide)

end

end Fec
