import ArtyEthernet.Model.HostDecoder
import ArtyEthernet.Proofs.Requests

/-!
# Frames as the host parses them

`Host.parseFrame` cannot tell padding from payload: it removes every zero at the end of a frame.
What it keeps of a request is the header and the payload up to its last nonzero byte.
-/

namespace ArtyEthernet
open Words

/-- What a network card hands over of a frame: no preamble, delimiter or check sequence. -/
def nicFrame (frame : List Byte) : List Byte := (frame.drop 8).rdrop 4

theorem nicFrame_wireBytes (body : List Byte) : nicFrame (wireBytes body) = body := by
  have hdrop : (wireBytes body).drop 8 = body ++ fcsBytes body := rfl
  have hlen : (fcsBytes body).length = 4 := by simp [fcsBytes]
  rw [nicFrame, hdrop, List.rdrop, List.length_append, hlen, Nat.add_sub_cancel, List.take_left]

namespace Host

theorem rstripZeros_snoc_zero (bs : List Byte) : rstripZeros (bs ++ [0#8]) = rstripZeros bs :=
  List.rdropWhile_concat_pos _ _ _ rfl

theorem rstripZeros_snoc (bs : List Byte) {b : Byte} (hb : b ≠ 0#8) :
    rstripZeros (bs ++ [b]) = bs ++ [b] :=
  List.rdropWhile_concat_neg _ _ _ (by simpa using hb)

theorem rstripZeros_padding (bs : List Byte) (n : ℕ) :
    rstripZeros (bs ++ List.replicate n 0#8) = rstripZeros bs := by
  induction n with
  | zero => rw [List.replicate_zero, List.append_nil]
  | succ n ih => rw [List.replicate_succ', ← List.append_assoc, rstripZeros_snoc_zero, ih]

theorem length_rstripZeros_le (bs : List Byte) : (rstripZeros bs).length ≤ bs.length :=
  (List.rdropWhile_prefix _ bs).length_le

theorem parseFrame_header (header : EthHeader) (rest : List Byte) :
    parseFrame (header.toBytes ++ rest) = .ok {
      dstMac := toBytes 6 header.dstMac
      srcMac := toBytes 6 header.srcMac
      ethertype := header.ethertype
      payload := rstripZeros rest
      raw := header.toBytes ++ rest } := by
  have hlong : ¬ (header.toBytes ++ rest).length < 14 := by simp
  have htype : ofBytes 16 ((header.toBytes ++ rest).extract 12 14) = header.ethertype :=
    ofBytes_toBytes (n := 2) header.ethertype rfl
  rw [parseFrame, if_neg hlong, htype]
  rfl

/-- What the host parses of the frame of a request. -/
def frameOf (r : ProtocolTxRequest) : ParsedFrame where
  dstMac := toBytes 6 r.header.dstMac
  srcMac := toBytes 6 r.header.srcMac
  ethertype := r.header.ethertype
  payload := rstripZeros r.payload
  raw := padBody r.frameBody

theorem parseFrame_wireFrame (r : ProtocolTxRequest) :
    parseFrame (nicFrame r.wireFrame) = .ok (frameOf r) := by
  have hbody : padBody r.frameBody =
      r.header.toBytes ++ (r.payload ++ List.replicate (minBody - r.frameBody.length) 0#8) := by
    rw [padBody, ProtocolTxRequest.frameBody, List.append_assoc]
  rw [ProtocolTxRequest.wireFrame, nicFrame_wireBytes, frameOf, hbody, parseFrame_header,
    rstripZeros_padding]

end Host

end ArtyEthernet
