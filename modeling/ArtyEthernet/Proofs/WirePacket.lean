import ArtyEthernet.Proofs.FrameData
import ArtyEthernet.Proofs.Framing

/-!
# The packet in a transmitted frame

A burst that carries the nibbles of `wireBytes body` is received as the padded body without its
frame check sequence, whatever the body contains.
-/

namespace ArtyEthernet
open Words

/-- The packet a receiver should find in a frame with this padded body. -/
def bodyPacket (body : List Byte) : Packet where
  header := .ofBytes (body.take 14)
  payload := body.drop 14
  truncated := false

@[simp] theorem length_fcsBytes (body : List Byte) : (fcsBytes body).length = 4 := by
  simp [fcsBytes]

/-- The preamble and the delimiter are removed, even from a body that looks like one. -/
theorem dataBytes_wireBytes (body : List Byte) :
    dataBytes (wireBytes body) = body ++ fcsBytes body := by
  have hsplit : wireBytes body =
      List.replicate (6 + 1) 0x55#8 ++ 0xd5#8 :: (body ++ fcsBytes body) := by
    simp [wireBytes]
  rw [hsplit, dataBytes_preamble]

theorem capturedPacket_frame {body fcs : List Byte} (hfcs : fcs.length = 4)
    (hmin : 14 ≤ body.length) (hmax : body.length ≤ 1514) :
    capturedPacket (body ++ fcs) = bodyPacket body := by
  have hlen : (body ++ fcs).length - 18 = body.length - 14 := by
    rw [List.length_append, hfcs]
    omega
  have hheader : headerBytes (body ++ fcs) = body.take 14 := by
    rw [headerBytes_eq_take (by rw [List.length_append]; omega)
      (by rw [List.length_append]; omega), List.take_append_of_le_length hmin]
  have hpayload : ((body ++ fcs).drop 14).take (body.length - 14) = body.drop 14 := by
    rw [List.drop_append_of_le_length hmin, List.take_append_of_le_length (by simp),
      List.take_of_length_le (by simp)]
  simp only [capturedPacket, bodyPacket, hlen, hheader,
    Nat.min_eq_right (show body.length - 14 ≤ 1500 by omega), hpayload,
    decide_eq_false (show ¬ 1500 < body.length - 14 by omega)]

theorem burstPacket_wire {r : RxBurst} {body : List Byte}
    (hnibbles : r.body.map RxPins.ethRxd = toNibbles (wireBytes body))
    (hclean : burstClean r = true) (hmin : minBody ≤ body.length) (hmax : body.length ≤ 1514) :
    burstPacket r = some (bodyPacket body) := by
  have hdata : burstData r = body ++ fcsBytes body := by
    rw [burstData, pinBytes, hnibbles, pairNibbles_toNibbles, dataBytes_wireBytes]
  simp only [minBody] at hmin
  have hlen : (burstData r).length = body.length + 4 := by
    rw [hdata, List.length_append, length_fcsBytes]
  rw [burstPacket, if_pos ⟨by rw [hlen]; omega, hclean⟩, hdata,
    capturedPacket_frame (length_fcsBytes body) (by omega) hmax]

end ArtyEthernet
