import ArtyEthernet.Model.HostSender

/-!
# The hardware tests

The waiting loop of `tests/hw/ethernet.py` and the three tests of `test_l2_endpoint.py` that use
it. A deadline is the list of the frames received before it. `expect_frame` shows its timeout and
computes nothing else with it, so it takes the text it shows.
-/

namespace ArtyEthernet.Host
open Words

def shortHex (frame : List Byte) (limit : ℕ) : List Char :=
  let data := frame.take limit
  let suffix := if limit < frame.length then "...".toList else []
  List.intercalate [' '] (data.map fun b => hexText 2 b.toNat) ++ suffix

def describeFrame (parsed : ParsedFrame) : List Char :=
  macText parsed.srcMac ++ " -> ".toList ++ macText parsed.dstMac ++ " ethertype=0x".toList ++
    hexText 4 parsed.ethertype.toNat ++ " payload=".toList ++ bytesRepr parsed.payload

structure RawEthernet where
  iface : List Char
  hostMac : List Byte

/-- A frame that is reported when no other matches. -/
def isRelevant (parsed : ParsedFrame) : Bool :=
  parsed.ethertype ∈ [arpEthertype, diagnosticBeaconEthertype] || parsed.srcMac == fpgaMac

/-- The loop over the frames received: the first match, or the last mismatches. -/
def expectLoop (predicate : ParsedFrame → Bool) (mismatches : List (ParsedFrame × List Byte)) :
    List (List Byte) → Except (List (ParsedFrame × List Byte)) ParsedFrame
  | [] => .error mismatches
  | frame :: frames =>
    match parseFrame frame with
    | .error _ => expectLoop predicate mismatches frames
    | .ok parsed =>
      if predicate parsed then .ok parsed
      else if isRelevant parsed then
        expectLoop predicate ((mismatches ++ [(parsed, frame)]).rtake 8) frames
      else expectLoop predicate mismatches frames

/-- The lines of the failure. The timeout is the text of its two decimals. -/
def failureDetails (rawEth : RawEthernet) (timeout expected : List Char)
    (mismatches : List (ParsedFrame × List Byte)) : List (List Char) :=
  ["timed out after ".toList ++ timeout ++ "s waiting for ".toList ++ expected,
    "host=".toList ++ macText rawEth.hostMac ++ " iface=".toList ++ rawEth.iface] ++
    if mismatches = [] then
      ["no relevant ARP, beacon, or FPGA-source frames were received".toList]
    else
      "recent relevant mismatches:".toList :: mismatches.map fun m =>
        "  ".toList ++ describeFrame m.1 ++ " hex=".toList ++ shortHex m.2 64

def expectFrame (rawEth : RawEthernet) (timeout : List Char) (predicate : ParsedFrame → Bool)
    (expected : List Char) (received : List (List Byte)) : Except String ParsedFrame :=
  match expectLoop predicate [] received with
  | .ok parsed => .ok parsed
  | .error mismatches =>
    .error (String.ofList
      (List.intercalate ['\n'] (failureDetails rawEth timeout expected mismatches)))

/-- What the beacon test waits for. -/
def isPeriodicBeacon (frame : ParsedFrame) : Bool :=
  frame.srcMac == fpgaMac && frame.dstMac == broadcastMac &&
    frame.ethertype == diagnosticBeaconEthertype && isBeaconPayload frame.payload

def testPeriodicBeacon (rawEth : RawEthernet) (timeout : List Char)
    (received : List (List Byte)) : Except String ParsedFrame :=
  expectFrame rawEth timeout isPeriodicBeacon
    ("diagnostics beacon from ".toList ++ macText fpgaMac ++ " to broadcast".toList) received

def testGratuitousArpAnnouncement (rawEth : RawEthernet) (timeout : List Char)
    (received : List (List Byte)) : Except String ParsedFrame :=
  expectFrame rawEth timeout isGratuitousArpReply
    ("gratuitous ARP reply from ".toList ++ macText fpgaMac ++ " for ".toList ++ fpgaIp) received

def testHostIp : List Char := "192.168.1.10".toList

def roundHalfEven (x : Rat) : Int :=
  let below := x.floor
  let rest := x - below
  if rest < 1 / 2 ∨ rest = 1 / 2 ∧ below % 2 = 0 then below else below + 1

/-- A number of seconds with two decimals. -/
def secondsText (seconds : Rat) : List Char :=
  let hundredths := (roundHalfEven ((if seconds < 0 then -seconds else seconds) * 100)).toNat
  (if seconds < 0 then ['-'] else []) ++ Nat.toDigits 10 (hundredths / 100) ++
    '.' :: (Numerals.digits 10 2 hundredths).map Nat.digitChar

example : secondsText (11 / 8) = "1.38".toList := by decide +kernel

/-- `raw_eth.drain`: the frames received in time are thrown away. -/
def drain (queue : List (List Byte)) (inTime : ℕ) : List (List Byte) := queue.drop inTime

/-- `queue` are the frames that come in before the request, `received` those that come in after it,
which depend on it. -/
def testArpRequestGetsUnicastReply (rawEth : RawEthernet) (timeout : Rat)
    (queue : List (List Byte)) (inTime : ℕ) (received : List Byte → List (List Byte)) :
    Except String ParsedFrame := do
  let queue := drain queue inTime
  let request ← buildArpRequest rawEth.hostMac testHostIp fpgaIp
  expectFrame rawEth (secondsText (if 2 < timeout then 2 else timeout))
    (fun frame => isArpReplyTo frame rawEth.hostMac testHostIp)
    ("unicast ARP reply from ".toList ++ macText fpgaMac ++ " to host".toList)
    (queue ++ received request)

end ArtyEthernet.Host
