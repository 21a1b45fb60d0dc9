import Mathlib.Data.List.GetD

/-!
This module contains a memory of bytes with the two transfers of a DMA engine: a get reads a range of
it, a put overwrites one.
-/

def Memory : Type := Nat → UInt8

namespace Memory

def get (mem : Memory) (ea size : Nat) : List UInt8 :=
  (List.range size).map fun i => mem (ea + i)

def put (mem : Memory) (ea : Nat) (bytes : List UInt8) : Memory := fun address =>
  if ea ≤ address ∧ address < ea + bytes.length then
    bytes.getD (address - ea) 0
  else
    mem address

@[simp]
theorem length_get (mem : Memory) (ea size : Nat) : (mem.get ea size).length = size := by
  simp [get]

theorem get_add (mem : Memory) (ea size more : Nat)
    : mem.get ea (size + more) = mem.get ea size ++ mem.get (ea + size) more := by
  simp only [get, List.range_add, List.map_append, List.map_map, Function.comp_def, Nat.add_assoc]

theorem take_get (mem : Memory) (ea : Nat) {size count : Nat} (h : count ≤ size)
    : (mem.get ea size).take count = mem.get ea count := by
  have hsize : size = count + (size - count) := by omega
  rw [hsize, get_add, List.take_left' (length_get mem ea count)]

theorem get_congr {mem mem' : Memory} {ea size : Nat}
    (h : ∀ address, ea ≤ address → address < ea + size → mem address = mem' address)
    : mem.get ea size = mem'.get ea size := by
  apply List.map_congr_left
  intro i hi
  rw [List.mem_range] at hi
  exact h (ea + i) (by omega) (by omega)

theorem get_put_self (mem : Memory) (ea : Nat) (bytes : List UInt8)
    : (mem.put ea bytes).get ea bytes.length = bytes := by
  apply List.ext_getElem
  . simp
  . intro i hi hi'
    simp [get, put, hi']

theorem put_of_not_mem (mem : Memory) {ea address : Nat} (bytes : List UInt8)
    (h : address < ea ∨ ea + bytes.length ≤ address)
    : mem.put ea bytes address = mem address := by
  rw [put, if_neg]
  omega

@[simp]
theorem put_nil (mem : Memory) (ea : Nat) : mem.put ea [] = mem := by
  funext address
  apply put_of_not_mem
  rw [List.length_nil]
  omega

/- Two writes one behind the other are one write. -/
theorem put_append (mem : Memory) (ea : Nat) (first second : List UInt8)
    : (mem.put ea first).put (ea + first.length) second = mem.put ea (first ++ second) := by
  funext address
  simp only [put, List.length_append]
  by_cases hfirst : address < ea + first.length
  . rw [if_neg (by omega)]
    by_cases hea : ea ≤ address
    . rw [if_pos ⟨hea, hfirst⟩, if_pos ⟨hea, by omega⟩, List.getD_append _ _ _ _ (by omega)]
    . rw [if_neg (by omega), if_neg (by omega)]
  . by_cases hsecond : address < ea + first.length + second.length
    . rw [if_pos ⟨by omega, hsecond⟩, if_pos ⟨by omega, by omega⟩,
        List.getD_append_right _ _ _ _ (by omega), Nat.sub_add_eq]
    . rw [if_neg (by omega), if_neg (by omega), if_neg (by omega)]

theorem get_put_of_disjoint (mem : Memory) {ea ea' size : Nat} (bytes : List UInt8)
    (h : ea' + size ≤ ea ∨ ea + bytes.length ≤ ea')
    : (mem.put ea bytes).get ea' size = mem.get ea' size := by
  apply get_congr
  intro address hfrom hto
  apply put_of_not_mem
  omega

end Memory
