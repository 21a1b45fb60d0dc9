import PS3Moonlight.Handshake.Transcript
import Mathlib.Logic.Function.Basic

/-!
This module contains what becomes of an exchange when the host answers the challenge with something
else. The nonce of the host is all the client takes from the challenge response, so the 32 bytes before
it can be any.
-/

namespace Handshake

variable {κ : Type}

/- A reply to the challenge, with nothing but what the client looks for. -/
def challengeReply (response : List UInt8) : List UInt8 :=
  ascii "HTTP/1.1 200 OK\r\n\r\n"
    ++ (ascii "<paired>" ++ (ascii "1" ++ (ascii "</paired>"
    ++ (ascii "<challengeresponse>" ++ (binToHex response ++ ascii "</challengeresponse>")))))

/- The host gives this challenge response in one round, and stays as it is in everything else. -/
def PairEnv.answering (env : PairEnv κ) (round : Nat) (response : List UInt8) : PairEnv κ :=
  let io := { (env.retry round).io with recv := [.data (challengeReply response) true, .close] }
  { env with retry := Function.update env.retry round { env.retry round with io := io } }

def Transcript.answering (tr : Transcript κ) (response : List UInt8) : Transcript κ :=
  { tr with
    reply2 := challengeReply response
    responseHex := binToHex response
    response := response }

theorem length_challengeReply (response : List UInt8)
    : (challengeReply response).length = 76 + 2 * response.length := by
  simp only [challengeReply, List.length_append, length_binToHex, ascii, List.length_map]
  have hlengths : "HTTP/1.1 200 OK\r\n\r\n".toList.length = 19 ∧ "<paired>".toList.length = 8
      ∧ "1".toList.length = 1 ∧ "</paired>".toList.length = 9
      ∧ "<challengeresponse>".toList.length = 19 ∧ "</challengeresponse>".toList.length = 20 := by
    decide
  omega

theorem cstr_challengeReply (response : List UInt8)
    : cstr (challengeReply response) = challengeReply response := by
  apply cstr_eq_self
  unfold challengeReply
  simp only [List.forall_mem_append]
  refine ⟨ne_of_all (by decide), ne_of_all (by decide), ne_of_all (by decide),
    ne_of_all (by decide), ne_of_all (by decide), ?_, ne_of_all (by decide)⟩
  intro c hc
  exact (mem_binToHex hc).left

theorem httpResponseOk_challengeReply (conversion : IntConversion) (response : List UInt8)
    : httpResponseOk conversion (challengeReply response) = true := by
  unfold httpResponseOk
  rw [cstr_challengeReply]
  have hstored : conversion.toInt 200 = 200 := conversion.toInt_eq 200 (by decide) (by decide)
  have hstatus : scanStatus conversion (challengeReply response) = some 200 := by
    unfold challengeReply
    simp [ascii, scanStatus, scanLiteral, scanNumber, isSpace, isDigit, hstored]
  rw [hstatus]
  rfl

theorem saysPaired_challengeReply (response : List UInt8)
    : saysPaired (challengeReply response) = true := by
  have hstart : startTag (ascii "paired") = 60 :: ascii "paired>" := by decide
  have hend : endTag (ascii "paired") = 60 :: ascii "/paired>" := by decide
  unfold saysPaired extractXml
  rw [cstr_challengeReply, hstart, hend]
  unfold challengeReply
  rw [strstr_append _ (ne_of_all (by decide))]
  rw [show ascii "<paired>" = 60 :: ascii "paired>" by decide, strstr_self]
  dsimp only [Option.map_some]
  rw [strstr_append _ (ne_of_all (by decide))]
  rw [show ascii "</paired>" = 60 :: ascii "/paired>" by decide, strstr_self]
  simp

theorem extractXml_challengeReply (response : List UInt8)
    : extractXml (challengeReply response) (ascii "challengeresponse") = some (binToHex response) := by
  have hstart : startTag (ascii "challengeresponse") = 60 :: ascii "challengeresponse>" := by decide
  have hend : endTag (ascii "challengeresponse") = 60 :: ascii "/challengeresponse>" := by decide
  have hdigits : ∀ c, c ∈ binToHex response → c ≠ 60 := by
    intro c hc
    exact (mem_binToHex hc).right
  unfold extractXml
  rw [cstr_challengeReply, hstart, hend]
  unfold challengeReply
  rw [strstr_append _ (ne_of_all (by decide))]
  rw [show ascii "<paired>" = 60 :: ascii "paired>" by decide, List.cons_append]
  rw [strstr_cons (by simp [ascii, List.isPrefixOf])]
  rw [strstr_append _ (ne_of_all (by decide))]
  rw [strstr_append _ (ne_of_all (by decide))]
  rw [show ascii "</paired>" = 60 :: ascii "/paired>" by decide, List.cons_append]
  rw [strstr_cons (by simp [ascii, List.isPrefixOf])]
  rw [strstr_append _ (ne_of_all (by decide))]
  rw [show ascii "<challengeresponse>" = 60 :: ascii "challengeresponse>" by decide, strstr_self]
  dsimp only [Option.map_some]
  rw [strstr_append _ hdigits]
  have hpost := strstr_self (60 :: ascii "/challengeresponse>") []
  rw [List.append_nil] at hpost
  rw [show ascii "</challengeresponse>" = 60 :: ascii "/challengeresponse>" by decide, hpost]
  simp

/-
The answer to a request does not depend on what the request was.
-/
theorem ps3HttpRequest_answering {info : HandshakeInfo} {urlPath reply : List UInt8} {io : HttpIo}
    (response : List UInt8) (hresponse : response.length ≤ 64)
    (h : ps3HttpRequest info urlPath io = some reply)
    : ps3HttpRequest info urlPath { io with recv := [.data (challengeReply response) true, .close] }
        =
      some (challengeReply response) := by
  unfold ps3HttpRequest at h ⊢
  dsimp only
  split at h
  . next hconnected =>
    rw [if_pos hconnected]
    unfold exchange at h ⊢
    split at h
    . simp at h
    . next hrequest =>
      split at h
      . next hsent =>
        have hlength := length_challengeReply response
        have hroom : ¬ maxHttpResponseSize < (challengeReply response).length := by
          rw [maxHttpResponseSize]
          omega
        have hreceived : recvLoop [] [.data (challengeReply response) true, .close]
            = some (challengeReply response) := by
          simp [recvLoop, appendString, hroom]
        rw [if_neg hrequest, if_pos hsent, hreceived]
        simp [httpResponseOk_challengeReply]
      . simp at h
  . simp at h

theorem decrypted_answering (ssl : PolarSsl κ) (pin : Option (List UInt8)) (tr : Transcript κ)
    {first : List UInt8} (hfirst : first.length = 32)
    : (tr.answering (first ++ tr.response.drop 32)).decrypted ssl pin
        =
      ecb (ssl.aesDecrypt (tr.key ssl pin)) first
        ++ ecb (ssl.aesDecrypt (tr.key ssl pin)) (tr.response.drop 32) := by
  apply Blocks.map_append _ (by omega)
  omega

theorem drop_decrypted_answering {ssl : PolarSsl κ} {pin : Option (List UInt8)}
    {tr : Transcript κ} {first : List UInt8} (hfirst : first.length = 32)
    (hresponse : 32 ≤ tr.response.length)
    : ((tr.answering (first ++ tr.response.drop 32)).decrypted ssl pin).drop 32
        =
      (tr.decrypted ssl pin).drop 32 := by
  have htake : (tr.response.take 32).length = 32 := by
    rw [List.length_take]
    omega
  have hlength : ∀ block : List UInt8, block.length = 32
      → (ecb (ssl.aesDecrypt (tr.key ssl pin)) block).length = 32 := by
    intro block hblock
    unfold ecb
    rw [Blocks.length_map (ssl.length_aesDecrypt _) (by omega), hblock]
  have hsplit : tr.decrypted ssl pin
      = ecb (ssl.aesDecrypt (tr.key ssl pin)) (tr.response.take 32)
        ++ ecb (ssl.aesDecrypt (tr.key ssl pin)) (tr.response.drop 32) := by
    unfold Transcript.decrypted ecb
    rw [← Blocks.map_append _ (by omega) _ (by omega), List.take_append_drop]
  rw [decrypted_answering _ _ _ hfirst, hsplit]
  rw [List.drop_left' (hlength _ hfirst), List.drop_left' (hlength _ htake)]

/-
The exchange goes through with any 32 bytes in place of the commitment.
-/
theorem Agreed.answering {ssl : PolarSsl κ} {info : HandshakeInfo} {pin : Option (List UInt8)}
    {env : PairEnv κ} {tr : Transcript κ} (h : Agreed ssl info pin env tr) {first : List UInt8}
    (hfirst : first.length = 32)
    : Agreed ssl info pin (env.answering tr.round (first ++ tr.response.drop 32))
        (tr.answering (first ++ tr.response.drop 32)) := by
  have hsize := h.responseSize
  have hcapacity := length_decodeHex h.response
  have hlength : (first ++ tr.response.drop 32).length = tr.response.length := by
    rw [List.length_append, List.length_drop]
    omega
  have hquery3 :
      (tr.answering (first ++ tr.response.drop 32)).query3 ssl pin = tr.query3 ssl pin := by
    unfold Transcript.query3 step3Query
    rw [drop_decrypted_answering hfirst (by omega)]
    rfl
  exact
    { h with
      round := h.round
      undecided := by
        intro n hn
        have hundecided := h.undecided n hn
        have hne : n ≠ tr.round := Nat.ne_of_lt hn
        simp only [PairEnv.answering, Function.update_of_ne hne]
        exact hundecided
      decided := by
        have hanswered :=
          ps3HttpRequest_answering (first ++ tr.response.drop 32) (by omega) h.decided.answered
        simp only [PairEnv.answering, Transcript.answering, Function.update_self]
        exact ⟨h.decided.drawn, h.decided.active, hanswered, saysPaired_challengeReply _,
          extractXml_challengeReply _⟩
      response := decodeHex_binToHex _ (by omega)
      responseSize := by
        simp only [Transcript.answering, hlength]
        exact hsize
      reply3 := by
        rw [hquery3]
        apply h.reply3 }

theorem take_decrypted_answering {ssl : PolarSsl κ} {pin : Option (List UInt8)}
    {tr : Transcript κ} {claimed : List UInt8} (hclaimed : claimed.length = 32)
    : ((tr.answering (ecb (ssl.aesEncrypt (tr.key ssl pin)) claimed
          ++ tr.response.drop 32)).decrypted ssl pin).take 32
        =
      claimed := by
  have hencrypted : (ecb (ssl.aesEncrypt (tr.key ssl pin)) claimed).length = 32 := by
    unfold ecb
    rw [Blocks.length_map (ssl.length_aesEncrypt _) (by omega), hclaimed]
  have hinverse : ecb (ssl.aesDecrypt (tr.key ssl pin)) (ecb (ssl.aesEncrypt (tr.key ssl pin)) claimed)
      = claimed := by
    apply Blocks.map_map (ssl.length_aesEncrypt _) (ssl.aesDecrypt_aesEncrypt _)
    omega
  rw [decrypted_answering _ _ _ hencrypted, hinverse, List.take_left' hclaimed]

end Handshake
