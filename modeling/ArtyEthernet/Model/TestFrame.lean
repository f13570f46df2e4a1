import ArtyEthernet.Model.Framer

/-!
# The framer on its own

`tb/ethernet_l2_endpoint_hls_test_frame.cpp`: a harness that gives the framer a body of any length,
the payload counting up from zero.
-/

namespace ArtyEthernet
open Words

/-- The static variables of the harness and of its framer. -/
structure TestFrame where
  testFrameBodyBuf : Buffer txFrameBodyBytesInt
  initialized : Bool
  started : Bool
  framer : Framer

def TestFrame.reset : TestFrame := ⟨.zero, false, false, .init⟩

def testFrameByte (header : EthHeader) (i : BitVec 11) : Byte :=
  if i < ethHeaderBytes.setWidth 11 then ethernetHeaderByte header (i.setWidth 4)
  else (i - ethHeaderBytes.setWidth 11).setWidth 8

/-- The buffer filled byte by byte. -/
def fillTestFrame (header : EthHeader) (n : ℕ) (buf : Buffer txFrameBodyBytesInt) :
    Buffer txFrameBodyBytesInt :=
  (List.range n).foldl (fun buf i => buf.set i (testFrameByte header (BitVec.ofNat 11 i))) buf

def ethernetL2EndpointHlsTestFrame (s : TestFrame) (dstMac : BitVec 48) (ethertype : BitVec 16)
    (payloadLen : BitVec 11) (cycle : BitVec 16) : TestFrame × FramerPins :=
  let testFrameBodyBuf :=
    if s.initialized then s.testFrameBodyBuf
    else fillTestFrame ⟨dstMac, fpgaMac, ethertype⟩ txFrameBodyBytesInt s.testFrameBodyBuf
  let startRequest := !s.started && cycle == 0
  let started := if startRequest then true else s.started
  let r := ethernetTxFramerStep s.framer startRequest (ethHeaderBytes.setWidth 11 + payloadLen)
    testFrameBodyBuf
  (⟨testFrameBodyBuf, true, if r.2.txIdle && started && cycle != 0 then false else started, r.1⟩,
    r.2)

end ArtyEthernet
