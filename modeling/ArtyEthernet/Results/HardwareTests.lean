import ArtyEthernet.Model.HostTests
import ArtyEthernet.Proofs.HostSender
import ArtyEthernet.Proofs.IdleLine
import ArtyEthernet.Results.BeaconDecoding
import ArtyEthernet.Results.Delivery
import ArtyEthernet.Results.ReplyRecognition

/-!
# The hardware tests against the endpoint

What the waiting loop returns and reports, and what becomes of the two tests that only listen when
they are run against the endpoint.
-/

namespace ArtyEthernet
open Words

namespace Host

def parsedFrames (received : List (List Byte)) : List ParsedFrame :=
  received.filterMap fun frame => (parseFrame frame).toOption

/-- The mismatches that are reported when nothing matches. -/
def reported (received : List (List Byte)) : List (ParsedFrame × List Byte) :=
  ((parsedFrames received).filter isRelevant).map fun parsed => (parsed, parsed.raw)

theorem raw_parseFrame {frame : List Byte} {parsed : ParsedFrame}
    (h : parseFrame frame = .ok parsed) : parsed.raw = frame := by
  rw [parseFrame] at h
  split_ifs at h
  rw [← Except.ok.inj h]

theorem rtake_append_rtake {α : Type*} (n : ℕ) (xs ys : List α) :
    (xs.rtake n ++ ys).rtake n = (xs ++ ys).rtake n := by
  rw [List.rtake_eq_reverse_take_reverse, List.rtake_eq_reverse_take_reverse,
    List.rtake_eq_reverse_take_reverse, List.reverse_append, List.reverse_append,
    List.reverse_reverse, List.take_append, List.take_append, List.take_take,
    Nat.min_eq_left (Nat.sub_le _ _)]

variable {predicate : ParsedFrame → Bool}

theorem expectLoop_eq (mismatches : List (ParsedFrame × List Byte))
    (hlast : mismatches.rtake 8 = mismatches) (received : List (List Byte)) :
    expectLoop predicate mismatches received =
      match (parsedFrames received).find? predicate with
      | some parsed => .ok parsed
      | none => .error ((mismatches ++ reported received).rtake 8) := by
  induction received generalizing mismatches with
  | nil => rw [expectLoop, reported, parsedFrames, List.filterMap_nil, List.filter_nil,
      List.map_nil, List.append_nil, hlast, List.find?_nil]
  | cons frame received ih =>
    cases hparse : parseFrame frame with
    | error e =>
      have hframes : parsedFrames (frame :: received) = parsedFrames received := by
        rw [parsedFrames, List.filterMap_cons_none (by rw [hparse]; rfl)]
        rfl
      rw [expectLoop, hparse, reported, hframes]
      exact ih mismatches hlast
    | ok parsed =>
      have hframes : parsedFrames (frame :: received) = parsed :: parsedFrames received := by
        rw [parsedFrames, List.filterMap_cons_some (by rw [hparse]; rfl)]
        rfl
      rw [expectLoop, hparse, reported, hframes]
      by_cases hmatch : predicate parsed = true
      · rw [List.find?_cons_of_pos hmatch]
        exact if_pos hmatch
      · rw [List.find?_cons_of_neg hmatch]
        dsimp only
        rw [if_neg hmatch]
        by_cases hrelevant : isRelevant parsed = true
        · have hkept : ((mismatches ++ [(parsed, frame)]).rtake 8).rtake 8 =
              (mismatches ++ [(parsed, frame)]).rtake 8 := by
            simpa using rtake_append_rtake 8 (mismatches ++ [(parsed, frame)]) []
          rw [if_pos hrelevant, ih _ hkept, rtake_append_rtake, List.append_assoc,
            List.filter_cons_of_pos hrelevant, List.map_cons, raw_parseFrame hparse]
          rfl
        · rw [if_neg hrelevant, ih _ hlast, List.filter_cons_of_neg hrelevant]
          rfl

/-- `expect_frame` returns the first frame that matches. When there is none it reports the last
eight relevant ones, in the order they came. -/
theorem expect_frame_first (rawEth : RawEthernet) (timeout expected : List Char)
    (predicate : ParsedFrame → Bool) (received : List (List Byte)) :
    expectFrame rawEth timeout predicate expected received =
      match (parsedFrames received).find? predicate with
      | some parsed => .ok parsed
      | none => .error (String.ofList (List.intercalate ['\n']
          (failureDetails rawEth timeout expected ((reported received).rtake 8)))) := by
  rw [expectFrame, expectLoop_eq [] rfl]
  cases (parsedFrames received).find? predicate <;> rfl

theorem dottedText_injective : Function.Injective dottedText := by
  intro ip ip' h
  have hread := inetAton_inetNtoa (toBytes 4 ip) (length_toBytes ip)
  rw [inetNtoa_toBytes, h, ← inetNtoa_toBytes,
    inetAton_inetNtoa (toBytes 4 ip') (length_toBytes ip')] at hread
  rw [← ofBytes_toBytes (n := 4) ip rfl, ← Except.ok.inj hread, ofBytes_toBytes (n := 4) ip' rfl]

theorem isArpReplyTo_arpReply {mac mac' : BitVec 48} {ip ip' : BitVec 32} :
    isArpReplyTo (frameOf (arpReplyRequest mac' ip')) (toBytes 6 mac) (dottedText ip) = true ↔
      mac' = mac ∧ ip' = ip ∧ lane ip 0 ≠ 0#8 := by
  constructor
  · intro h
    have hdst : (frameOf (arpReplyRequest mac' ip')).dstMac = toBytes 6 mac := by
      by_contra hne
      rw [isArpReplyTo, if_pos (Or.inr (Or.inl hne))] at h
      contradiction
    obtain rfl : mac' = mac := by
      have hread := congrArg (ofBytes 48) hdst
      rwa [ofBytes_toBytes (n := 6) mac rfl, frameOf, ofBytes_toBytes (n := 6) _ rfl] at hread
    rw [isArpReplyTo] at h
    split_ifs at h
    rw [parseArpPayload_frameOf] at h
    split_ifs at h with hzero
    have htarget : dottedText ip' = dottedText ip := by
      simp only [Bool.and_eq_true, beq_iff_eq] at h
      exact h.2
    obtain rfl := dottedText_injective htarget
    exact ⟨rfl, rfl, hzero⟩
  · rintro ⟨rfl, rfl, hlast⟩
    rw [isArpReplyTo_frameOf, decide_eq_true hlast]

variable {r : ProtocolTxRequest}

def Judges (r : ProtocolTxRequest) : Prop :=
  match r.kind with
  | .none => False
  | .gratuitousArp => isGratuitousArpReply (frameOf r) = true
  | .beacon => isBeaconPayload (frameOf r).payload = true ∧
      ∀ p ∈ r.counters, readHexField (frameOf r).payload p.1 = some p.2.toNat
  | .arpReply => isArpReplyTo (frameOf r) (toBytes 6 r.arpRequesterMac)
      (dottedText r.arpRequesterIp) = decide (lane r.arpRequesterIp 0 ≠ 0#8)

/-- Everything sent is recognised for what it is, except a reply to an address that ends in a
zero octet. -/
theorem judges_offered (hr : r.Offered) : Judges r := by
  cases hr with
  | gratuitousArp => exact isGratuitousArpReply_frameOf
  | beacon st rxQueue txQueue =>
    have hpayload := payload_frameOf_beacon (r := beaconSnapshot st rxQueue txQueue) rfl
    change _ ∧ _
    rw [hpayload]
    exact ⟨isBeaconPayload_beaconText _, fun p => readHexField_beaconText _⟩
  | arpReply mac ip => exact isArpReplyTo_frameOf mac ip

/-- Of all that the endpoint sends, only the frame of the reply to `mac` and `ip` is taken for it,
unless `ip` ends in a zero octet. -/
theorem isArpReplyTo_offered (hr : r.Offered) (mac : BitVec 48) (ip : BitVec 32) :
    isArpReplyTo (frameOf r) (toBytes 6 mac) (dottedText ip) = true ↔
      frameOf r = frameOf (arpReplyRequest mac ip) ∧ lane ip 0 ≠ 0#8 := by
  constructor
  · intro h
    cases hr with
    | gratuitousArp =>
      have hframe : frameOf protocolTxGratuitousArpRequest =
          frameOf (arpReplyRequest ArtyEthernet.broadcastMac ArtyEthernet.fpgaIp) := rfl
      rw [hframe] at h ⊢
      obtain ⟨rfl, rfl, hlast⟩ := isArpReplyTo_arpReply.mp h
      exact ⟨rfl, hlast⟩
    | beacon st rxQueue txQueue =>
      have htype : (frameOf (beaconSnapshot st rxQueue txQueue)).ethertype ≠ arpEthertype := by
        change ArtyEthernet.diagnosticBeaconEthertype ≠ arpEthertype
        decide
      rw [isArpReplyTo, if_pos (Or.inr (Or.inr htype))] at h
      contradiction
    | arpReply mac' ip' =>
      obtain ⟨rfl, rfl, hlast⟩ := isArpReplyTo_arpReply.mp h
      exact ⟨rfl, hlast⟩
  · rintro ⟨hframe, hlast⟩
    have hjudges : isArpReplyTo _ (toBytes 6 mac) (dottedText ip) = _ :=
      judges_offered (.arpReply mac ip)
    rw [hframe, hjudges]
    exact decide_eq_true hlast

theorem isGratuitousArpReply_offered (hr : r.Offered) :
    isGratuitousArpReply (frameOf r) = true ↔
      frameOf r = frameOf protocolTxGratuitousArpRequest := by
  have hlast : lane ArtyEthernet.fpgaIp 0 ≠ 0#8 := by decide
  have hiff := isArpReplyTo_offered hr ArtyEthernet.broadcastMac ArtyEthernet.fpgaIp
  rw [and_iff_left hlast] at hiff
  exact hiff

theorem isPeriodicBeacon_offered (hr : r.Offered) :
    isPeriodicBeacon (frameOf r) = r.isBeacon := by
  cases hr with
  | gratuitousArp => rfl
  | beacon st rxQueue txQueue =>
    have hjudges := (judges_offered (.beacon st rxQueue txQueue)).1
    have hheader : (beaconSnapshot st rxQueue txQueue).header =
        ⟨ArtyEthernet.broadcastMac, ArtyEthernet.fpgaMac,
          ArtyEthernet.diagnosticBeaconEthertype⟩ := rfl
    rw [isPeriodicBeacon, hjudges, frameOf, hheader]
    rfl
  | arpReply mac ip => simp [isPeriodicBeacon, frameOf, arpReplyRequest, ProtocolTxRequest.isBeacon,
      ArtyEthernet.arpEthertype, diagnosticBeaconEthertype]

end Host

/-- The frames the host receives while `later` is driven after `prior`. -/
def heardFrames (prior later : List RxPins) : List (List Byte) :=
  ((emittedFrames (prior ++ later)).drop (emittedFrames prior).length).map nicFrame

/-- The requests whose frames the host receives while `later` is driven after `prior`. -/
structure Heard (prior later : List RxPins) (heard : List ProtocolTxRequest) : Prop where
  frames : heardFrames prior later = heard.map fun r => nicFrame r.wireFrame
  accepted : heard <:+: acceptedRequests (prior ++ later)
  /-- What is accepted early enough is heard. -/
  fresh : ∀ mid rest new, later = mid ++ rest → 1316 ≤ rest.length →
    acceptedRequests (prior ++ mid) = acceptedRequests prior ++ new → ∀ r ∈ new, r ∈ heard

theorem heard_run (prior later : List RxPins) : ∃ heard, Heard prior later heard := by
  obtain ⟨before, hbefore, hearlier⟩ := emittedFrames_accepted prior
  obtain ⟨emitted, hprior, hframes⟩ := emittedFrames_accepted (prior ++ later)
  have hlen : (emittedFrames prior).length = before.length := by rw [hearlier, List.length_map]
  refine ⟨emitted.drop before.length, ?_, ?_, ?_⟩
  · rw [heardFrames, hlen, hframes, ← List.map_drop, List.map_map]
    rfl
  · exact (List.drop_suffix _ emitted).isInfix.trans hprior.isInfix
  · intro mid rest new hlater hlong hnew r hr
    obtain ⟨emitted', hprior', hframes', hold⟩ := emitted_requests (prior ++ mid) rest hlong
    rw [List.append_assoc, ← hlater] at hprior' hframes'
    have hsame : emitted' = emitted := by
      have hlength := congrArg List.length (hframes'.symm.trans hframes)
      rw [List.length_map, List.length_map] at hlength
      exact (List.prefix_of_prefix_length_le hprior' hprior hlength.le).eq_of_length hlength
    obtain ⟨tail, rfl⟩ := hsame ▸ hold
    have hle := hbefore.length_le
    rw [hnew, List.append_assoc, List.drop_append_of_le_length hle]
    exact List.mem_append_right _ (List.mem_append_left _ hr)

namespace Heard
variable {prior later : List RxPins} {heard : List ProtocolTxRequest}

theorem offered (h : Heard prior later heard) : ∀ r ∈ heard, r.Offered := fun r hr =>
  offered_of_accepted (prior ++ later) r (h.accepted.subset hr)

theorem parsedFrames (h : Heard prior later heard) :
    Host.parsedFrames (heardFrames prior later) = heard.map Host.frameOf := by
  rw [Host.parsedFrames, h.frames, List.filterMap_map, ← List.filterMap_eq_map]
  apply List.filterMap_congr
  intro r _
  change (Host.parseFrame (nicFrame r.wireFrame)).toOption = _
  rw [Host.parseFrame_wireFrame]
  rfl

theorem find?_frameOf {predicate : Host.ParsedFrame → Bool} {wanted : ProtocolTxRequest → Bool}
    (h : ∀ r ∈ heard, predicate (Host.frameOf r) = wanted r) :
    (heard.map Host.frameOf).find? predicate = (heard.find? wanted).map Host.frameOf := by
  have hfilter : heard.filter (predicate ∘ Host.frameOf) = heard.filter wanted :=
    List.filter_congr h
  rw [List.find?_map, ← List.head?_filter, ← List.head?_filter, hfilter]

theorem expectFrame_ok (h : Heard prior later heard) (rawEth : Host.RawEthernet)
    (timeout expected : List Char) {predicate : Host.ParsedFrame → Bool}
    {wanted : ProtocolTxRequest → Bool}
    (hwanted : ∀ r ∈ heard, predicate (Host.frameOf r) = wanted r) (parsed : Host.ParsedFrame) :
    Host.expectFrame rawEth timeout predicate expected (heardFrames prior later) = .ok parsed ↔
      ∃ r, heard.find? wanted = some r ∧ Host.frameOf r = parsed := by
  rw [Host.expectFrame, Host.expectLoop_eq [] rfl, h.parsedFrames, find?_frameOf hwanted]
  cases heard.find? wanted <;> simp

end Heard

section Listening
variable (rawEth : Host.RawEthernet) (timeout : List Char) (prior later : List RxPins)

def announces (r : ProtocolTxRequest) : Bool :=
  decide (Host.frameOf r = Host.frameOf protocolTxGratuitousArpRequest)

/-- What the two listening tests return when they are run while `later` is driven. -/
structure ListeningTests (heard : List ProtocolTxRequest) : Prop where
  hears : Heard prior later heard
  /-- The first beacon heard, with all its counters. -/
  beacon : ∀ parsed,
    Host.testPeriodicBeacon rawEth timeout (heardFrames prior later) = .ok parsed ↔
      ∃ r, heard.find? ProtocolTxRequest.isBeacon = some r ∧ Host.frameOf r = parsed ∧
        ∀ p ∈ r.counters, Host.readHexField parsed.payload p.1 = some p.2.toNat
  announcement : ∀ parsed,
    Host.testGratuitousArpAnnouncement rawEth timeout (heardFrames prior later) = .ok parsed ↔
      heard.any announces = true ∧ Host.frameOf protocolTxGratuitousArpRequest = parsed

theorem listeningTests_run : ∃ heard, ListeningTests rawEth timeout prior later heard := by
  obtain ⟨heard, h⟩ := heard_run prior later
  refine ⟨heard, h, fun parsed => ?_, fun parsed => ?_⟩
  · rw [Host.testPeriodicBeacon, h.expectFrame_ok rawEth timeout _
      fun r hr => Host.isPeriodicBeacon_offered (h.offered r hr)]
    constructor
    · rintro ⟨r, hr, rfl⟩
      refine ⟨r, hr, rfl, ?_⟩
      have hkind : r.kind = .beacon := by
        simpa [ProtocolTxRequest.isBeacon] using List.find?_some hr
      have hjudges := Host.judges_offered (h.offered r (List.mem_of_find?_eq_some hr))
      rw [Host.Judges, hkind] at hjudges
      exact hjudges.2
    · rintro ⟨r, hr, hframe, -⟩
      exact ⟨r, hr, hframe⟩
  · have hwanted : ∀ r ∈ heard,
        Host.isGratuitousArpReply (Host.frameOf r) = announces r := by
      intro r hr
      rw [announces, Bool.eq_iff_iff, decide_eq_true_eq]
      exact Host.isGratuitousArpReply_offered (h.offered r hr)
    rw [Host.testGratuitousArpAnnouncement, h.expectFrame_ok rawEth timeout _ hwanted]
    constructor
    · rintro ⟨r, hr, rfl⟩
      have hannounces : announces r = true := List.find?_some hr
      exact ⟨List.any_eq_true.mpr ⟨r, List.mem_of_find?_eq_some hr, hannounces⟩,
        (of_decide_eq_true hannounces).symm⟩
    · rintro ⟨hany, rfl⟩
      obtain ⟨r, hr⟩ := Option.isSome_iff_exists.mp
        (List.find?_isSome.mpr (List.any_eq_true.mp hany))
      have hannounces : announces r = true := List.find?_some hr
      exact ⟨r, hr, of_decide_eq_true hannounces⟩

/-- In every run the beacon test finds the first beacon heard before its deadline, and the
announcement test an announcement, if there is one. -/
theorem listening_tests_exact : ∃ heard, ListeningTests rawEth timeout prior later heard :=
  listeningTests_run rawEth timeout prior later

theorem heard_tick {heard : List ProtocolTxRequest} (h : Heard prior later heard)
    (hidle : IdleLine later) {n : ℕ} (hstart : 1542 ≤ n) (hend : n + 1317 ≤ later.length)
    (htick : (prior.length + n + 1) % 25000000 = 0) :
    ∃ i, tickRequest (prior ++ later.take n) i ∈ heard := by
  obtain ⟨i, hi⟩ : ∃ i, later[n]? = some i := ⟨_, List.getElem?_eq_getElem (by omega)⟩
  have hmid : later.take (n + 1) = later.take n ++ [i] := by
    rw [List.take_add_one, hi]
    rfl
  have hlen : (later.take n).length = n := by
    rw [List.length_take]
    omega
  have haccepted := tick_accepted prior (later.take n) i
    (fun p hp => hidle p (List.take_subset _ _ (hmid ▸ hp))) (by omega) (by rwa [hlen])
  have hold := acceptedRequests_mono prior (later.take n)
  obtain ⟨between, hbetween⟩ := hold
  refine ⟨i, h.fresh (later.take (n + 1)) (later.drop (n + 1))
    (between ++ [tickRequest (prior ++ later.take n) i]) (List.take_append_drop _ _).symm ?_ ?_ _
    (List.mem_append_right _ (List.mem_singleton_self _))⟩
  · rw [List.length_drop]
    omega
  · rw [hmid, ← List.append_assoc, acceptedRequests_snoc, haccepted, ← hbetween,
      Option.toList_some, List.append_assoc]

theorem exists_tick {period : ℕ} (hpos : 0 < period) (base start : ℕ) :
    ∃ n, start ≤ n ∧ n < start + period ∧ (base + n + 1) % period = 0 := by
  have hlt := Nat.mod_lt (base + start) hpos
  have hsplit := Nat.div_add_mod (base + start) period
  refine ⟨start + (period - 1 - (base + start) % period), by omega, by omega, ?_⟩
  have hnext : base + (start + (period - 1 - (base + start) % period)) + 1 =
      period * ((base + start) / period + 1) := by
    rw [Nat.mul_succ]
    omega
  rw [hnext, Nat.mul_mod_right]

/-- On an idle line both tests pass, whatever has been received before: the one within 50 million
cycles, the other within 125 million, and the time a frame takes. -/
theorem listening_tests_pass (hidle : IdleLine later) :
    (50002860 ≤ later.length →
        ∃ parsed, Host.testPeriodicBeacon rawEth timeout (heardFrames prior later) = .ok parsed) ∧
      (125002860 ≤ later.length →
        ∃ parsed,
          Host.testGratuitousArpAnnouncement rawEth timeout (heardFrames prior later) =
            .ok parsed) := by
  obtain ⟨heard, h⟩ := listeningTests_run rawEth timeout prior later
  constructor
  · intro hlong
    -- of two ticks in a row one is not taken by an announcement
    obtain ⟨n, hstart, hend, htick, hother⟩ : ∃ n, 1542 ≤ n ∧ n + 1317 ≤ later.length ∧
        (prior.length + n + 1) % 25000000 = 0 ∧ (prior.length + n + 1) % 125000000 ≠ 0 := by
      obtain ⟨n, hstart, hend, htick⟩ := exists_tick (show 0 < 25000000 by omega) prior.length 1542
      by_cases harp : (prior.length + n + 1) % 125000000 = 0
      · exact ⟨n + 25000000, by omega, by omega, by omega, by omega⟩
      · exact ⟨n, hstart, by omega, htick, harp⟩
    obtain ⟨i, hmem⟩ := heard_tick prior later h.hears hidle hstart hend htick
    have hlen : (prior ++ later.take n).length + 1 = prior.length + n + 1 := by
      rw [List.length_append, List.length_take]
      omega
    have hbeacon : (tickRequest (prior ++ later.take n) i).isBeacon = true := by
      rw [tickRequest, hlen, if_neg hother]
      rfl
    obtain ⟨r, hr⟩ := Option.isSome_iff_exists.mp (List.find?_isSome.mpr ⟨_, hmem, hbeacon⟩)
    rw [Host.testPeriodicBeacon]
    exact ⟨_, (h.hears.expectFrame_ok rawEth timeout _
      (fun r hr => Host.isPeriodicBeacon_offered (h.hears.offered r hr)) _).mpr ⟨r, hr, rfl⟩⟩
  · intro hlong
    obtain ⟨n, hstart, hend, harp⟩ := exists_tick (show 0 < 125000000 by omega) prior.length 1542
    obtain ⟨i, hmem⟩ := heard_tick prior later h.hears hidle hstart (by omega) (by omega)
    have hlen : (prior ++ later.take n).length + 1 = prior.length + n + 1 := by
      rw [List.length_append, List.length_take]
      omega
    have hannounces : announces (tickRequest (prior ++ later.take n) i) = true := by
      rw [tickRequest, hlen, if_pos harp]
      exact decide_eq_true rfl
    exact ⟨_, (h.announcement _).mpr ⟨List.any_eq_true.mpr ⟨_, hmem, hannounces⟩, rfl⟩⟩

end Listening

theorem listening_tests_pass_reset :
    ∃ parsed, Host.testPeriodicBeacon ⟨[], []⟩ "8.00".toList
      (heardFrames [] (List.replicate 200000000 ⟨false, 0, false⟩)) = .ok parsed :=
  (listening_tests_pass ⟨[], []⟩ "8.00".toList [] (List.replicate 200000000 ⟨false, 0, false⟩)
    (fun p hp => by rw [List.eq_of_mem_replicate hp])).1
      (by rw [List.length_replicate]; omega)

end ArtyEthernet
