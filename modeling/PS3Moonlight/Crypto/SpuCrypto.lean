import PS3Moonlight.Crypto.SpuAes
import PS3Moonlight.Crypto.SpuSha256
import PS3Moonlight.Lib.Memory

/-!
This module contains the commands of the SPU program `spu_crypto.c`, which fetches its input from main
memory in chunks of 16 KB and puts its output back there.
-/

namespace Crypto

open Aes (State)

def maxChunkSize : Nat := 16384

inductive CryptoCommand where
  | nop
  | quit
  | sha256
  | aes128Ecb
  | aes128Cbc
  | aes128Gcm

inductive CryptoStatus where
  | busy
  | ok
  | err
deriving DecidableEq

structure CryptoCmd where
  cmd : CryptoCommand
  status : CryptoStatus
  dataLen : UInt32
  eaInput : Nat
  eaOutput : Nat
  eaKey : Nat
  eaIv : Nat
  elapsedTicks : UInt32

/- Main memory with the command packet apart, and the staging buffer of the Local Store. -/
structure CryptoSpu where
  gCmd : CryptoCmd
  mem : Memory
  gBufferOut : { bytes : List UInt8 // bytes.length = maxChunkSize }

/- The size of a chunk, rounded up for the transfer. -/
def dmaSize (chunk : Nat) : Nat :=
  (chunk + 15) / 16 * 16

def sha256CommandLoop (mem : Memory) (ctx : Sha256Ctx) (eaCurr remaining : Nat) : Sha256Ctx :=
  if 0 < remaining then
    let chunk := if maxChunkSize < remaining then maxChunkSize else remaining
    let gBufferIn := mem.get eaCurr (dmaSize chunk)
    let ctx := sha256Update ctx (gBufferIn.take chunk)
    sha256CommandLoop mem ctx (eaCurr + chunk) (remaining - chunk)
  else
    ctx
termination_by remaining
decreasing_by
  unfold maxChunkSize
  split <;> omega

def readBlock (bytes : List UInt8) (pos : Nat) : Block :=
  Vector.ofFn fun i => bytes.getD (pos + i) 0

/- The loop over the blocks of a chunk, from block `b` on. -/
def cbcBlockLoop (roundKeys gBufferIn : List UInt8) (blocks b : Nat) (gBufferOut : List UInt8)
    (prevBlock : Block) : List UInt8 × Block :=
  match blocks with
  | 0 => ⟨gBufferOut, prevBlock⟩
  | blocks + 1 =>
    let ct := readBlock gBufferIn (b * 16)
    let pt := aes128DecryptBlock roundKeys ct
    let pt : Block := Vector.zipWith (fun p c => p ^^^ c) pt prevBlock
    let gBufferOut := Bytes.write gBufferOut (b * 16) pt.toList
    cbcBlockLoop roundKeys gBufferIn blocks (b + 1) gBufferOut ct

def cbcChunkLoop (roundKeys : List UInt8) (mem : Memory) (gBufferOut : List UInt8)
    (prevBlock : Block) (eaIn eaOut remaining : Nat) : Memory × List UInt8 :=
  if 0 < remaining then
    let chunk := if maxChunkSize < remaining then maxChunkSize else remaining
    let gBufferIn := mem.get eaIn (dmaSize chunk)
    let decrypted := cbcBlockLoop roundKeys gBufferIn (chunk / 16) 0 gBufferOut prevBlock
    let mem := mem.put eaOut (decrypted.fst.take (dmaSize chunk))
    cbcChunkLoop roundKeys mem decrypted.fst decrypted.snd (eaIn + chunk) (eaOut + chunk)
      (remaining - chunk)
  else
    ⟨mem, gBufferOut⟩
termination_by remaining
decreasing_by
  unfold maxChunkSize
  split <;> omega

theorem toState_readBlock (bytes : List UInt8) (pos : Nat)
    : toState (readBlock bytes pos) = State.read bytes pos := by
  simp [toState, readBlock, State.read, Aes.Column.read]

theorem toState_xor (a b : Block)
    : toState (Vector.zipWith (fun p c => p ^^^ c) a b) = toState a ^^^ toState b := by
  simp [toState, Aes.State.xor_def, Aes.Column.xor_def]

/- The blocks of the input. -/
def cbcBlocks (n : Nat) (data : List UInt8) : List State :=
  (Blocks.split 16 n data).map State.ofBytes

theorem cbcBlocks_succ (n : Nat) (data : List UInt8)
    : cbcBlocks (n + 1) data = State.ofBytes data :: cbcBlocks n (data.drop 16) := by
  rw [cbcBlocks, Blocks.split_succ, List.map_cons, Aes.State.ofBytes_take]
  rfl

def decryptBlocks (roundKeys : List UInt8) (iv : State) (blocks : List State) : List State :=
  Cbc.decrypt (Aes.cipher (roundKeyAt roundKeys)).symm iv blocks

theorem toState_decrypted (roundKeys : List UInt8) (ct prevBlock : Block)
    : toState (Vector.zipWith (fun p c => p ^^^ c) (aes128DecryptBlock roundKeys ct) prevBlock)
        =
      (Aes.cipher (roundKeyAt roundKeys)).symm (toState ct) ^^^ toState prevBlock := by
  rw [toState_xor, aes128DecryptBlock_eq]

theorem toState_readBlock_eq (bytes : List UInt8) (b : Nat)
    : toState (readBlock bytes (b * 16)) = State.ofBytes (bytes.drop (b * 16)) := by
  rw [toState_readBlock, State.ofBytes, Aes.State.read_drop, Nat.add_zero]

theorem cbcBlockLoop_fst (roundKeys gBufferIn : List UInt8) {blocks b : Nat}
    {gBufferOut : List UInt8} (prevBlock : Block) (hout : b * 16 + blocks * 16 ≤ gBufferOut.length)
    : (cbcBlockLoop roundKeys gBufferIn blocks b gBufferOut prevBlock).fst
        =
      gBufferOut.take (b * 16)
        ++ ((decryptBlocks roundKeys (toState prevBlock)
            (cbcBlocks blocks (gBufferIn.drop (b * 16)))).flatMap State.bytes
          ++ gBufferOut.drop (b * 16 + blocks * 16)) := by
  induction blocks generalizing b gBufferOut prevBlock with
  | zero => simp [cbcBlockLoop, cbcBlocks, Blocks.split, decryptBlocks, Cbc.decrypt]
  | succ blocks ih =>
    rw [cbcBlockLoop, cbcBlocks_succ, List.drop_drop, decryptBlocks, Cbc.decrypt, List.flatMap_cons,
      ← toState_readBlock_eq, ← toState_decrypted, bytes_toState]
    generalize hpt : Vector.zipWith (fun p c => p ^^^ c)
      (aes128DecryptBlock roundKeys (readBlock gBufferIn (b * 16))) prevBlock = pt
    have hlength : pt.toList.length = 16 := pt.length_toList
    have hnext : (b + 1) * 16 = b * 16 + pt.toList.length := by omega
    have htake := Bytes.take_write pt.toList (by omega : b * 16 ≤ gBufferOut.length)
    rw [← hnext] at htake
    rw [ih, htake, Bytes.drop_write (by omega) (by omega)]
    . simp only [hnext, hlength, List.append_assoc, decryptBlocks]
      congr 4
      omega
    . rw [Bytes.length_write (by omega)]
      omega

theorem cbcBlockLoop_snd (roundKeys gBufferIn : List UInt8) (blocks b : Nat)
    (gBufferOut : List UInt8) (prevBlock : Block)
    : toState (cbcBlockLoop roundKeys gBufferIn blocks b gBufferOut prevBlock).snd
        =
      (cbcBlocks blocks (gBufferIn.drop (b * 16))).getLastD (toState prevBlock) := by
  induction blocks generalizing b gBufferOut prevBlock with
  | zero => rfl
  | succ blocks ih =>
    have hnext : (b + 1) * 16 = b * 16 + 16 := by omega
    rw [cbcBlockLoop, ih, cbcBlocks_succ, List.getLastD_cons, List.drop_drop, toState_readBlock_eq,
      hnext]

theorem length_cbcBlockLoop (roundKeys gBufferIn : List UInt8) {blocks b : Nat}
    {gBufferOut : List UInt8} (prevBlock : Block) (hout : b * 16 + blocks * 16 ≤ gBufferOut.length)
    : (cbcBlockLoop roundKeys gBufferIn blocks b gBufferOut prevBlock).fst.length
        =
      gBufferOut.length := by
  induction blocks generalizing b gBufferOut prevBlock with
  | zero => rfl
  | succ blocks ih =>
    rw [cbcBlockLoop, ih]
    . apply Bytes.length_write
      rw [Vector.length_toList]
      omega
    . rw [Bytes.length_write]
      . omega
      . rw [Vector.length_toList]
        omega

theorem cbcBlocks_append {m : Nat} (n : Nat) {first : List UInt8} (rest : List UInt8)
    (h : first.length = m * 16)
    : cbcBlocks (m + n) (first ++ rest) = cbcBlocks m first ++ cbcBlocks n rest := by
  unfold cbcBlocks
  rw [Blocks.split_append m n first rest h, List.map_append]

theorem decryptBlocks_append (roundKeys : List UInt8) (iv : State) (first rest : List State)
    : decryptBlocks roundKeys iv (first ++ rest)
        =
      decryptBlocks roundKeys iv first ++ decryptBlocks roundKeys (first.getLastD iv) rest := by
  apply Cbc.decrypt_append

theorem length_flatMap_decryptBlocks (roundKeys : List UInt8) (iv : State) (n : Nat)
    (data : List UInt8)
    : ((decryptBlocks roundKeys iv (cbcBlocks n data)).flatMap State.bytes).length = n * 16 := by
  rw [Aes.length_flatMap_bytes, decryptBlocks, Cbc.length_decrypt, cbcBlocks, List.length_map,
    Blocks.length_split, Nat.mul_comm]

/- What the loop over the chunks does to main memory, the input being in `mem`. -/
structure Decrypted (roundKeys : List UInt8) (iv : State) (eaIn eaOut blocks : Nat)
    (mem mem' : Memory) : Prop where
  output : mem'.get eaOut (blocks * 16)
    = (decryptBlocks roundKeys iv (cbcBlocks blocks (mem.get eaIn (blocks * 16)))).flatMap State.bytes
  frame : ∀ address, address < eaOut ∨ eaOut + blocks * 16 ≤ address → mem' address = mem address

theorem Decrypted.append {roundKeys : List UInt8} {iv : State} {eaIn eaOut m n : Nat}
    {mem mem' mem'' : Memory}
    (hdisjoint : eaIn + (m + n) * 16 ≤ eaOut ∨ eaOut + (m + n) * 16 ≤ eaIn)
    (hfirst : Decrypted roundKeys iv eaIn eaOut m mem mem')
    (hrest : Decrypted roundKeys ((cbcBlocks m (mem.get eaIn (m * 16))).getLastD iv)
      (eaIn + m * 16) (eaOut + m * 16) n mem' mem'')
    : Decrypted roundKeys iv eaIn eaOut (m + n) mem mem'' where
  output := by
    have hkept : mem''.get eaOut (m * 16) = mem'.get eaOut (m * 16) := by
      apply Memory.get_congr
      intro address _ hto
      exact hrest.frame address (by omega)
    have hinput : mem'.get (eaIn + m * 16) (n * 16) = mem.get (eaIn + m * 16) (n * 16) := by
      apply Memory.get_congr
      intro address hfrom hto
      exact hfirst.frame address (by omega)
    rw [Nat.add_mul, Memory.get_add, Memory.get_add, hkept, hfirst.output, hrest.output, hinput,
      cbcBlocks_append n _ (Memory.length_get _ _ _), decryptBlocks_append, List.flatMap_append]
  frame := by
    intro address haddress
    rw [hrest.frame address (by omega), hfirst.frame address (by omega)]

/- One chunk. -/
theorem decrypted_chunk {roundKeys : List UInt8} {eaIn eaOut m : Nat} {mem : Memory}
    {gBufferOut : List UInt8} (prevBlock : Block) (hout : m * 16 ≤ gBufferOut.length)
    : Decrypted roundKeys (toState prevBlock) eaIn eaOut m mem
        (mem.put eaOut ((cbcBlockLoop roundKeys (mem.get eaIn (m * 16)) m 0 gBufferOut
          prevBlock).fst.take (m * 16))) := by
  have hroom : 0 * 16 + m * 16 ≤ gBufferOut.length := by omega
  have hfst := cbcBlockLoop_fst roundKeys (mem.get eaIn (m * 16)) prevBlock hroom
  have hlength := length_flatMap_decryptBlocks roundKeys (toState prevBlock) m
    (mem.get eaIn (m * 16))
  rw [Nat.zero_mul, List.take_zero, List.nil_append, List.drop_zero] at hfst
  rw [hfst, List.take_left' hlength]
  constructor
  . have hput := Memory.get_put_self mem eaOut
      ((decryptBlocks roundKeys (toState prevBlock)
        (cbcBlocks m (mem.get eaIn (m * 16)))).flatMap State.bytes)
    rw [hlength] at hput
    exact hput
  . intro address haddress
    rw [Memory.put_of_not_mem]
    rw [hlength]
    exact haddress

theorem dmaSize_eq (m : Nat) : dmaSize (m * 16) = m * 16 := by
  unfold dmaSize
  omega

theorem cbcChunkLoop_decrypted (roundKeys : List UInt8) (mem : Memory) {eaIn eaOut blocks : Nat}
    {gBufferOut : List UInt8} (prevBlock : Block) (hout : gBufferOut.length = maxChunkSize)
    (hdisjoint : eaIn + blocks * 16 ≤ eaOut ∨ eaOut + blocks * 16 ≤ eaIn)
    : Decrypted roundKeys (toState prevBlock) eaIn eaOut blocks mem
        (cbcChunkLoop roundKeys mem gBufferOut prevBlock eaIn eaOut (blocks * 16)).fst := by
  induction blocks using Nat.strong_induction_on generalizing eaIn eaOut mem gBufferOut prevBlock with
  | _ blocks ih =>
    rw [cbcChunkLoop]
    split
    . next hpos =>
      have hchunk : ∃ m n, blocks = m + n ∧ 0 < m ∧ m * 16 ≤ maxChunkSize
          ∧ (if maxChunkSize < blocks * 16 then maxChunkSize else blocks * 16) = m * 16 := by
        unfold maxChunkSize
        split
        . exact ⟨1024, blocks - 1024, by omega, by omega, by omega, by omega⟩
        . exact ⟨blocks, 0, by omega, by omega, by omega, rfl⟩
      obtain ⟨m, n, hsum, hm, hfits, hchunk⟩ := hchunk
      have hrest : blocks * 16 - m * 16 = n * 16 := by omega
      simp only [hchunk, dmaSize_eq, Nat.mul_div_cancel m (by decide : 0 < 16), hrest]
      rw [hsum] at hdisjoint ⊢
      have hroom : m * 16 ≤ gBufferOut.length := by omega
      apply Decrypted.append hdisjoint (decrypted_chunk prevBlock hroom)
      have hsnd := cbcBlockLoop_snd roundKeys (mem.get eaIn (m * 16)) m 0 gBufferOut prevBlock
      rw [Nat.zero_mul, List.drop_zero] at hsnd
      rw [← hsnd]
      apply ih n (by omega)
      . rw [length_cbcBlockLoop _ _ _ (by omega), hout]
      . omega
    . next hzero =>
      have hnone : blocks = 0 := by omega
      rw [hnone]
      constructor
      . rfl
      . intro address _
        rfl

theorem length_cbcChunkLoop (roundKeys : List UInt8) (mem : Memory) {gBufferOut : List UInt8}
    (prevBlock : Block) (eaIn eaOut remaining : Nat) (hout : gBufferOut.length = maxChunkSize)
    : (cbcChunkLoop roundKeys mem gBufferOut prevBlock eaIn eaOut remaining).snd.length
        =
      maxChunkSize := by
  fun_induction cbcChunkLoop roundKeys mem gBufferOut prevBlock eaIn eaOut remaining with
  | case1 mem gBufferOut prevBlock eaIn eaOut remaining hpos chunk gBufferIn decrypted mem' ih =>
    apply ih
    have hchunk : chunk ≤ maxChunkSize := by
      simp only [chunk]
      split <;> omega
    have hroom : 0 * 16 + chunk / 16 * 16 ≤ gBufferOut.length := by omega
    rw [← hout]
    exact length_cbcBlockLoop roundKeys gBufferIn prevBlock hroom
  | case2 => exact hout

/-
The commands.
-/

def aes128CbcCommand (s : CryptoSpu) : CryptoSpu :=
  let gKey := readBlock (s.mem.get s.gCmd.eaKey 16) 0
  let gIv := readBlock (s.mem.get s.gCmd.eaIv 16) 0
  let done := cbcChunkLoop (aes128KeyExpansion gKey) s.mem s.gBufferOut gIv s.gCmd.eaInput
    s.gCmd.eaOutput s.gCmd.dataLen.toNat
  have hout := length_cbcChunkLoop _ s.mem gIv _ _ _ s.gBufferOut.property
  { s with mem := done.fst, gBufferOut := ⟨done.snd, hout⟩ }

def sha256Command (buffer : Vector UInt8 64) (s : CryptoSpu) : CryptoSpu :=
  let ctx := sha256CommandLoop s.mem (sha256Starts buffer) s.gCmd.eaInput s.gCmd.dataLen.toNat
  { s with mem := s.mem.put s.gCmd.eaOutput (sha256Finish ctx) }

/-
What the loop of `main` does for a signal other than QUIT. The buffer of the context is what the stack
of the SPU holds.
-/
def serve (ticks : UInt32) (buffer : Vector UInt8 64) (s : CryptoSpu) : CryptoSpu :=
  let s :=
    match s.gCmd.cmd with
    | .sha256 => sha256Command buffer s
    | .aes128Cbc => aes128CbcCommand s
    | _ => s
  { s with gCmd := { s.gCmd with elapsedTicks := ticks, status := .ok } }

/- A command to decrypt, whose output does not go into the input. -/
structure CbcRequest (s : CryptoSpu) (key iv ciphertext : List UInt8) : Prop where
  cmd : s.gCmd.cmd = .aes128Cbc
  dataLen : s.gCmd.dataLen.toNat = ciphertext.length
  key : s.mem.get s.gCmd.eaKey 16 = key
  iv : s.mem.get s.gCmd.eaIv 16 = iv
  input : s.mem.get s.gCmd.eaInput ciphertext.length = ciphertext
  disjoint : s.gCmd.eaInput + ciphertext.length ≤ s.gCmd.eaOutput
    ∨ s.gCmd.eaOutput + ciphertext.length ≤ s.gCmd.eaInput

/- What the command puts into the output buffer. -/
def served (ticks : UInt32) (buffer : Vector UInt8 64) (s : CryptoSpu) : List UInt8 :=
  (serve ticks buffer s).mem.get s.gCmd.eaOutput s.gCmd.dataLen.toNat

/- The command decrypts everything that was encrypted with this key. -/
def DecryptsCbc (key : List UInt8) : Prop :=
  ∀ (ticks : UInt32) (buffer : Vector UInt8 64) (s : CryptoSpu) (iv plaintext : List UInt8),
    16 ∣ plaintext.length → 0 < plaintext.length
      → CbcRequest s key iv (Aes.cbcEncrypt key iv plaintext)
      → served ticks buffer s = plaintext

def keyBlock (key : List UInt8) : Block :=
  readBlock key 0

theorem toState_keyBlock (key : List UInt8) : toState (keyBlock key) = State.ofBytes key := by
  apply toState_readBlock

def expandedKeys (key : List UInt8) (r : Nat) : State :=
  roundKeyAt (aes128KeyExpansion (keyBlock key)) r

theorem served_eq (ticks : UInt32) (buffer : Vector UInt8 64) {s : CryptoSpu}
    {key iv ciphertext : List UInt8} {blocks : Nat} (h : CbcRequest s key iv ciphertext)
    (hlength : ciphertext.length = blocks * 16)
    : served ticks buffer s
        =
      (Cbc.decrypt (Aes.cipher (expandedKeys key)).symm (State.ofBytes iv)
        (cbcBlocks blocks ciphertext)).flatMap State.bytes := by
  have hdisjoint := h.disjoint
  have hinput := h.input
  rw [hlength] at hdisjoint hinput
  have hdone := cbcChunkLoop_decrypted (aes128KeyExpansion (keyBlock key)) s.mem (keyBlock iv)
    s.gBufferOut.property hdisjoint
  have houtput := hdone.output
  rw [hinput, toState_keyBlock] at houtput
  rw [served, h.dataLen, hlength, serve, h.cmd]
  simp only [aes128CbcCommand, h.key, h.iv, h.dataLen, hlength]
  exact houtput

theorem length_cbcEncrypt (key iv plaintext : List UInt8)
    : (Aes.cbcEncrypt key iv plaintext).length = plaintext.length / 16 * 16 := by
  simp only [Aes.cbcEncrypt, Aes.length_flatMap_bytes, Cbc.length_encrypt, List.length_map,
    Blocks.length_split]
  omega

theorem cbcBlocks_cbcEncrypt (key iv plaintext : List UInt8)
    : cbcBlocks (plaintext.length / 16) (Aes.cbcEncrypt key iv plaintext)
        =
      Cbc.encrypt (Aes.aes128 (State.ofBytes key)) (State.ofBytes iv)
        (cbcBlocks (plaintext.length / 16) plaintext) := by
  have hblocks := Aes.blocks_flatMap_bytes (Cbc.encrypt (Aes.aes128 (State.ofBytes key))
    (State.ofBytes iv) (cbcBlocks (plaintext.length / 16) plaintext))
  rw [Cbc.length_encrypt, cbcBlocks, List.length_map, Blocks.length_split] at hblocks
  exact hblocks

theorem expandedKeys_eq_iff (key : List UInt8) {last : Nat} (h : last ≤ 10)
    : (∀ r, r ≤ last → Aes.roundKey Aes.sBox (State.ofBytes key) r = expandedKeys key r)
        ↔
      Avoids (State.ofBytes key) last := by
  rw [← toState_keyBlock]
  exact aes128KeyExpansion_eq_iff _ h

theorem decryptsCbc_of_avoids {key : List UInt8} (h : Avoids (State.ofBytes key) 10)
    : DecryptsCbc key := by
  intro ticks buffer s iv plaintext hdvd _ hrequest
  have hkeys := (expandedKeys_eq_iff key (Nat.le_refl 10)).mpr h
  rw [served_eq ticks buffer hrequest (length_cbcEncrypt key iv plaintext), cbcBlocks_cbcEncrypt,
    ← Aes.cipher_congr hkeys, Aes.aes128,
    Cbc.decrypt_encrypt Aes.State.xor_xor_cancel (Equiv.symm_apply_apply _)]
  apply Aes.flatMap_bytes_blocks
  omega

/- If only the last round key is wrong then not even the first block comes out right. -/
theorem served_ne (ticks : UInt32) (buffer : Vector UInt8 64) {s : CryptoSpu}
    {key iv plaintext : List UInt8} (hfirst : Avoids (State.ofBytes key) 9)
    (hlast : ¬Avoids (State.ofBytes key) 10) (hdvd : 16 ∣ plaintext.length)
    (hpos : 0 < plaintext.length)
    (hrequest : CbcRequest s key iv (Aes.cbcEncrypt key iv plaintext))
    : served ticks buffer s ≠ plaintext := by
  have hkeys := (expandedKeys_eq_iff key (by omega : 9 ≤ 10)).mpr hfirst
  have hwrong : Aes.roundKey Aes.sBox (State.ofBytes key) 10 ≠ expandedKeys key 10 := by
    intro heq
    apply hlast
    rw [← expandedKeys_eq_iff key (Nat.le_refl 10)]
    intro r hr
    cases Nat.lt_or_eq_of_le hr with
    | inl hlt => exact hkeys r (by omega)
    | inr hten => rw [hten, heq]
  have hblocks : cbcBlocks (plaintext.length / 16) plaintext ≠ [] := by
    rw [← List.length_pos_iff_ne_nil, cbcBlocks, List.length_map, Blocks.length_split]
    omega
  have hplain : (cbcBlocks (plaintext.length / 16) plaintext).flatMap State.bytes = plaintext := by
    apply Aes.flatMap_bytes_blocks
    omega
  rw [served_eq ticks buffer hrequest (length_cbcEncrypt key iv plaintext), cbcBlocks_cbcEncrypt]
  intro heq
  rw [← hplain] at heq
  apply Cbc.decrypt_encrypt_ne Aes.State.xor_xor_cancel
    (Aes.cipher_symm_ne hkeys hwrong) (State.ofBytes iv) hblocks
  apply Aes.flatMap_bytes_injective
  rw [hplain] at heq ⊢
  exact heq

/- The addresses of the buffers and what the PPU puts into them before it signals. -/
def stage (key iv ciphertext : List UInt8) : CryptoSpu where
  gCmd :=
    { cmd := .aes128Cbc, status := .busy, dataLen := ciphertext.length.toUInt32, eaInput := 32
      eaOutput := 32 + ciphertext.length, eaKey := 0, eaIv := 16, elapsedTicks := 0 }
  mem := ((Memory.put (fun _ => 0) 0 key).put 16 iv).put 32 ciphertext
  gBufferOut := ⟨List.replicate maxChunkSize 0, List.length_replicate⟩

theorem cbcRequest_stage {key iv ciphertext : List UInt8} (hkey : key.length = 16)
    (hiv : iv.length = 16) (hlength : ciphertext.length < 2 ^ 32)
    : CbcRequest (stage key iv ciphertext) key iv ciphertext where
  cmd := by rfl
  dataLen := by
    simp only [stage, Nat.toUInt32_eq, UInt32.toNat_ofNat']
    omega
  key := by
    have hput := Memory.get_put_self (fun _ => 0) 0 key
    rw [hkey] at hput
    simp only [stage]
    rw [Memory.get_put_of_disjoint _ _ (by omega), Memory.get_put_of_disjoint _ _ (by omega), hput]
  iv := by
    have hput := Memory.get_put_self (Memory.put (fun _ => 0) 0 key) 16 iv
    rw [hiv] at hput
    simp only [stage]
    rw [Memory.get_put_of_disjoint _ _ (by omega), hput]
  input := by
    apply Memory.get_put_self
  disjoint := by
    simp only [stage]
    omega

/-
The key expansion is that of AES exactly for the keys whose expansion does not substitute the byte
0xa7, and for these keys the command decrypts. With a key that meets the byte in the last round only
nothing is decrypted.
-/
theorem aes128Cbc_decrypts (key : List UInt8)
    : ((∀ r, r ≤ 10 → Aes.roundKey Aes.sBox (State.ofBytes key) r = expandedKeys key r)
        ↔ Avoids (State.ofBytes key) 10)
        ∧
      (Avoids (State.ofBytes key) 10 → DecryptsCbc key)
        ∧
      (Avoids (State.ofBytes key) 9 → ¬Avoids (State.ofBytes key) 10
        → ∀ (ticks : UInt32) (buffer : Vector UInt8 64) (s : CryptoSpu) (iv plaintext : List UInt8),
          16 ∣ plaintext.length → 0 < plaintext.length
            → CbcRequest s key iv (Aes.cbcEncrypt key iv plaintext)
            → served ticks buffer s ≠ plaintext) := by
  refine ⟨expandedKeys_eq_iff key (Nat.le_refl 10), decryptsCbc_of_avoids, ?_⟩
  intro hfirst hlast ticks buffer s iv plaintext hdvd hpos hrequest
  exact served_ne ticks buffer hfirst hlast hdvd hpos hrequest

def zeroBlock : List UInt8 :=
  List.replicate 16 0

def exampleKey : List UInt8 :=
  [0x2b, 0x7e, 0x15, 0x16, 0x28, 0xae, 0xd2, 0xa6, 0xab, 0xf7, 0x15, 0x88, 0x09, 0xcf, 0x4f, 0x3c]

theorem aes128Cbc_decrypts_example
    : served 0 (Vector.replicate 64 0)
        (stage exampleKey zeroBlock (Aes.cbcEncrypt exampleKey zeroBlock zeroBlock))
        =
      zeroBlock := by
  have havoids : Avoids (State.ofBytes exampleKey) 10 := by
    decide +kernel
  apply (aes128Cbc_decrypts exampleKey).right.left havoids
  . decide
  . decide
  . apply cbcRequest_stage rfl rfl
    rw [length_cbcEncrypt]
    decide

/- The expansion of this key meets the wrong byte in its last round. -/
def failingKey : List UInt8 :=
  [0, 0, 0, 0, 0, 0, 0, 0, 0, 0, 0, 0, 0, 0, 0, 8]

theorem not_decryptsCbc_failingKey : ¬∀ key : List UInt8, key.length = 16 → DecryptsCbc key := by
  intro h
  have hfirst : Avoids (State.ofBytes failingKey) 9 := by
    decide +kernel
  have hlast : ¬Avoids (State.ofBytes failingKey) 10 := by
    decide +kernel
  have hrequest : CbcRequest
      (stage failingKey zeroBlock (Aes.cbcEncrypt failingKey zeroBlock zeroBlock)) failingKey zeroBlock
      (Aes.cbcEncrypt failingKey zeroBlock zeroBlock) := by
    apply cbcRequest_stage rfl rfl
    rw [length_cbcEncrypt]
    decide
  have hpos : 0 < zeroBlock.length := by decide
  have hdvd : 16 ∣ zeroBlock.length := by decide
  have hne := served_ne 0 (Vector.replicate 64 0) hfirst hlast hdvd hpos hrequest
  exact hne (h failingKey rfl 0 _ _ _ _ hdvd hpos hrequest)

/-
SHA-256: the 16 KB chunks of the command are as good as any other pieces.
-/

theorem represents_commandLoop (mem : Memory) (ctx : Sha256Ctx) (eaCurr remaining : Nat)
    : ∀ message, Represents ctx message
        → Represents (sha256CommandLoop mem ctx eaCurr remaining)
          (message ++ mem.get eaCurr remaining) := by
  fun_induction sha256CommandLoop mem ctx eaCurr remaining with
  | case1 ctx eaCurr remaining hpos chunk gBufferIn ctx' ih =>
    intro message h
    have hchunk : chunk ≤ remaining := by
      simp only [chunk]
      split <;> omega
    have hdma : chunk ≤ dmaSize chunk := by
      unfold dmaSize
      omega
    have hsum : remaining = chunk + (remaining - chunk) := by omega
    have hnext := ih _ (represents_update h (gBufferIn.take chunk))
    rw [Memory.take_get mem eaCurr hdma, List.append_assoc, ← Memory.get_add, ← hsum] at hnext
    exact hnext
  | case2 ctx eaCurr remaining hzero =>
    intro message h
    have hnone : remaining = 0 := by omega
    rw [hnone]
    simpa [Memory.get] using h

theorem sha256_digest
    : (∀ (buffer : Vector UInt8 64) (chunks : List (List UInt8)), chunks.flatten.length < 2 ^ 32
        → sha256Finish (chunks.foldl sha256Update (sha256Starts buffer))
          = Sha256.digest chunks.flatten)
        ∧
      (∀ (ticks : UInt32) (buffer : Vector UInt8 64) (s : CryptoSpu), s.gCmd.cmd = .sha256
        → (serve ticks buffer s).mem.get s.gCmd.eaOutput 32
          = Sha256.digest (s.mem.get s.gCmd.eaInput s.gCmd.dataLen.toNat)) := by
  constructor
  . intro buffer chunks h
    exact sha256Finish_chunks buffer h
  . intro ticks buffer s h
    have hctx := represents_commandLoop s.mem _ s.gCmd.eaInput s.gCmd.dataLen.toNat _
      (represents_starts buffer)
    have hlength : (s.mem.get s.gCmd.eaInput s.gCmd.dataLen.toNat).length < 2 ^ 32 := by
      rw [Memory.length_get]
      exact s.gCmd.dataLen.toNat_lt
    rw [List.nil_append] at hctx
    have hdigest := length_digest (s.mem.get s.gCmd.eaInput s.gCmd.dataLen.toNat)
    rw [serve, h]
    simp only [sha256Command, sha256Finish_eq hctx hlength]
    rw [← hdigest]
    apply Memory.get_put_self

/- The message of the self test, in two pieces. -/
theorem sha256_digest_abc
    : sha256Finish ([[97], [98, 99]].foldl sha256Update (sha256Starts (Vector.replicate 64 0)))
        =
      Sha256.digest [97, 98, 99] := by
  have h := sha256_digest.left (Vector.replicate 64 0) [[97], [98, 99]] (by decide)
  exact h

end Crypto
