import ArtyEthernet.Proofs.BetweenFrames
import ArtyEthernet.Proofs.Collecting
import ArtyEthernet.Proofs.TestbenchFrames
import ArtyEthernet.Results.CrossConnect

/-!
# One frame of the test bench

The test bench drives a frame into the pins and collects. Between two frames it collects the reply
when the frame asks for one and nothing when it does not, and the endpoint is between two frames
again. What a frame asks for is read off its bytes.
-/

namespace ArtyEthernet.Testbench
open Words Synchronous

def nibblePins (frame : List Byte) : List RxPins :=
  (toNibbles frame).map fun d => ⟨true, d, false⟩

def idlePin : RxPins := ⟨false, 0, false⟩

def sentPins (frame : List Byte) : List RxPins := nibblePins frame ++ [idlePin]

theorem ethRxDv_nibblePins (frame : List Byte) : ∀ p ∈ nibblePins frame, p.ethRxDv = true := by
  intro p hp
  obtain ⟨d, -, rfl⟩ := List.mem_map.mp hp
  rfl

theorem length_nibblePins (frame : List Byte) : (nibblePins frame).length = 2 * frame.length := by
  simp [nibblePins]

theorem sendRxFrame_eq (prior : List RxPins) (frame : List Byte) :
    sendRxFrame (runFrom prior) frame = runFrom (prior ++ sentPins frame) := by
  rw [sentPins, ← List.append_assoc, runFrom_snoc, runFrom_append, sendRxFrame]
  congr 1
  generalize runFrom prior = s
  induction frame generalizing s with
  | nil => rfl
  | cons b frame ih => exact ih _

def seen (p : TxPins) : Bool × Nibble := (p.ethTxEn, p.ethTxd)

theorem trace_endpointCycle (s : Endpoint) (window : List RxPins) :
    trace (next endpointCycle) (shown endpointCycle) s window =
      (trace Endpoint.step Endpoint.outputs s window).map seen := by
  induction window generalizing s with
  | nil => rfl
  | cons i window ih => exact congrArg _ (ih _)

theorem idle_replicate {n : ℕ} : ∀ p ∈ List.replicate n idlePin, p.ethRxDv = false :=
  fun p hp => by rw [List.eq_of_mem_replicate hp]; rfl

section Collect
variable {prior : List RxPins} {n : ℕ}

theorem collectTxFrame_eq (s : Endpoint) (n : ℕ) :
    collectTxFrame s n =
      ((collectLoop endpointCycle (List.replicate n idlePin) s .init).frame,
        (collectLoop endpointCycle (List.replicate n idlePin) s .init).state) := rfl

theorem collect_none (h : Settled prior)
    (hsame : acceptedRequests (prior ++ List.replicate n idlePin) = acceptedRequests prior) :
    collectTxFrame (runFrom prior) n = ([], runFrom (prior ++ List.replicate n idlePin)) := by
  have hsilent := h.silent hsame
  have hloop := collectLoop_none endpointCycle (runFrom prior) (List.replicate n idlePin)
    fun p hp => by
      rw [trace_endpointCycle] at hp
      obtain ⟨q, hq, rfl⟩ := List.mem_map.mp hp
      exact hsilent q hq
  rw [collectTxFrame_eq, hloop, runFrom_append]
  rfl

/-- A single request that goes out meanwhile is collected, and the endpoint is left in the cycle
behind its frame. -/
theorem collect_one {r : ProtocolTxRequest} (h : Settled prior)
    (hone : acceptedRequests (prior ++ List.replicate n idlePin) = acceptedRequests prior ++ [r])
    (hend : Settled (prior ++ List.replicate n idlePin)) :
    ∃ m ≤ n, collectTxFrame (runFrom prior) n =
        (r.wireFrame, runFrom (prior ++ List.replicate m idlePin)) ∧
      (acceptedRequests prior).length <
        (wireRuns (drivenPins (prior ++ List.replicate m idlePin))).length := by
  obtain ⟨hruns, -⟩ := h.wire (List.replicate n idlePin)
  rw [hend.runs, hone, List.map_append, List.append_cancel_left_eq, wireRuns] at hruns
  obtain ⟨burst, hbursts, hbody⟩ := List.map_eq_singleton_iff.mp hruns.symm
  obtain ⟨before, after, hsplit, hbefore, hon, hoff⟩ := MaximalRuns.first_burst hbursts
  obtain ⟨front, last, hinputs, hfront, hlast⟩ := split_trace _ _ hsplit
  obtain ⟨xs, ys, rfl, hxs, hys⟩ := split_trace _ _ hfront
  cases last with
  | nil => cases hlast
  | cons i zs =>
    obtain ⟨hstop, -⟩ := List.cons.inj hlast
    have hm : (xs ++ ys ++ [i]).length ≤ n := by
      have hlen := congrArg List.length hinputs
      simp only [List.length_append, List.length_replicate, List.length_cons] at hlen
      simp only [List.length_append, List.length_singleton]
      omega
    have hidle : xs ++ ys ++ [i] = List.replicate (xs ++ ys ++ [i]).length idlePin := by
      refine List.eq_replicate_of_mem fun p hp => List.eq_of_mem_replicate (n := n) ?_
      rw [hinputs]
      simp only [List.mem_append, List.mem_cons] at hp ⊢
      tauto
    refine ⟨_, hm, ?_, ?_⟩
    · have hquiet : ∀ p ∈ trace (next endpointCycle) (shown endpointCycle) (runFrom prior) xs,
          p.1 = false := by
        rw [trace_endpointCycle, hxs]
        intro p hp
        obtain ⟨q, hq, rfl⟩ := List.mem_map.mp hp
        exact hbefore q hq
      have hframe : trace (next endpointCycle) (shown endpointCycle)
          (run (next endpointCycle) (runFrom prior) xs) ys =
            (toNibbles r.wireFrame).map fun d => (true, d) := by
        have hbodyNibbles : toNibbles r.wireFrame = burst.body.map TxPins.ethTxd := hbody.symm
        rw [trace_endpointCycle, hbodyNibbles, List.map_map]
        refine (congrArg (List.map seen) hys).trans (List.map_congr_left fun p hp => ?_)
        rw [seen, hon p hp]
        rfl
      have hloop := collectLoop_frame endpointCycle (runFrom prior) xs zs ys i r.wireFrame
        (by simp [ProtocolTxRequest.wireFrame, wireBytes]) hquiet hframe
        ((congrArg TxPins.ethTxEn hstop).trans hoff)
      rw [collectTxFrame_eq, hinputs, hloop, ← hidle, runFrom_append]
      rfl
    · have hdriven :
          drivenAfter prior (xs ++ ys ++ [i]) = before ++ burst.body ++ [burst.stop] := by
        rw [drivenAfter, trace_snoc, hstop, hfront]
      rw [← hidle, (h.wire _).1, hdriven, List.length_append, List.length_map, wireRuns]
      have hne : burst.body ≠ [] := by
        intro hempty
        rw [hempty] at hbody
        exact nibbles_ne_nil r hbody.symm
      rw [(MaximalRuns.bursts_ended before burst.body burst.stop [] hbefore hon hne hoff).1]
      simp

/-- What the test bench should collect for a frame. -/
def answer (frame : List Byte) : List Byte :=
  match acceptedRequester ⟨nibblePins frame, idlePin⟩ with
  | some (mac, ip) => (arpReplyRequest mac ip).wireFrame
  | none => []

/-- One frame, from one moment between two frames to the next. -/
theorem probe_frame (h : Between prior) (frame : List Byte) (hn : 238 ≤ n)
    (hcalm : Calm prior (2 * frame.length + 1 + n)) :
    ∃ m ≤ n, collectTxFrame (sendRxFrame (runFrom prior) frame) n =
        (answer frame, runFrom (prior ++ sentPins frame ++ List.replicate m idlePin)) ∧
      Between (prior ++ sentPins frame ++ List.replicate m idlePin) := by
  have hserve {m : ℕ} (hm : m ≤ n) :
      Served prior (nibblePins frame) idlePin (List.replicate m idlePin) := by
    refine h.serve (ethRxDv_nibblePins frame) rfl idle_replicate ?_
    rw [length_nibblePins, List.length_replicate]
    unfold Calm at hcalm ⊢
    omega
  have hall := hserve le_rfl
  have hlong : (List.replicate n idlePin).length = n := List.length_replicate
  rw [sendRxFrame_eq, answer]
  cases hasks : acceptedRequester ⟨nibblePins frame, idlePin⟩ with
  | none =>
    obtain ⟨hsame, hbetween⟩ := hall.quiet hasks
    exact ⟨n, le_rfl, collect_none hall.settled (hsame.trans hall.accepted.symm),
      hbetween (by omega)⟩
  | some requester =>
    obtain ⟨haccepted, hend⟩ := hall.answer hasks (by omega)
    obtain ⟨m, hm, hcollect, hcount⟩ := collect_one hall.settled
      (haccepted.trans (by rw [hall.accepted])) hend
    refine ⟨m, hm, hcollect, (hserve hm).between_answered ?_⟩
    rwa [hall.accepted] at hcount

end Collect

section Answers
variable {body fcs dst src srcIp targetIp : List Byte}

/-- The frame check sequence does not matter. -/
theorem burstPacket_frame (hfcs : fcs.length = 4) (hmin : 14 ≤ body.length)
    (hmax : body.length ≤ 1514) :
    burstPacket ⟨nibblePins (preamble ++ body ++ fcs), idlePin⟩ = some (bodyPacket body) := by
  have hdata : burstData ⟨nibblePins (preamble ++ body ++ fcs), idlePin⟩ = body ++ fcs := by
    have hnibbles : (nibblePins (preamble ++ body ++ fcs)).map RxPins.ethRxd =
        toNibbles (preamble ++ body ++ fcs) := by
      rw [nibblePins, List.map_map]
      exact List.map_id _
    have hpreamble : preamble ++ body ++ fcs =
        List.replicate (6 + 1) 0x55#8 ++ 0xd5#8 :: (body ++ fcs) := by
      simp [preamble, List.replicate_succ]
    rw [burstData, pinBytes, hnibbles, pairNibbles_toNibbles, hpreamble, dataBytes_preamble]
  have hclean : burstClean ⟨nibblePins (preamble ++ body ++ fcs), idlePin⟩ = true := by
    simp [burstClean, nibblePins, idlePin]
  have hlen : (body ++ fcs).length = body.length + 4 := by rw [List.length_append, hfcs]
  rw [burstPacket, hdata, if_pos ⟨by rw [hlen]; omega, hclean⟩,
    capturedPacket_frame hfcs hmin hmax]

theorem answer_frame (hfcs : fcs.length = 4) (hmin : 14 ≤ body.length)
    (hmax : body.length ≤ 1514) :
    answer (preamble ++ body ++ fcs) = match (bodyPacket body).arpRequester with
      | some (mac, ip) => (arpReplyRequest mac ip).wireFrame
      | none => [] := by
  rw [answer, ← arpRequester_burstPacket, burstPacket_frame hfcs hmin hmax, Option.bind_some]

theorem answer_other (hfcs : fcs.length = 4) (hmin : 14 ≤ body.length)
    (hmax : body.length ≤ 1514) (htype : ofBytes 16 ((body.drop 12).take 2) ≠ arpEthertype) :
    answer (preamble ++ body ++ fcs) = [] := by
  have hheader : (bodyPacket body).header.ethertype = ofBytes 16 ((body.drop 12).take 2) := by
    change ofBytes 16 (((body.take 14).drop 12).take 2) = _
    rw [List.drop_take, List.take_take]
    rfl
  have hnone : (bodyPacket body).arpRequester = none := by
    rw [Packet.arpRequester, if_neg]
    rintro ⟨hwants, -⟩
    simp only [Packet.wantsArpParse, Bool.and_eq_true, beq_iff_eq] at hwants
    exact htype (hheader.symm.trans hwants.1.2)
  rw [answer_frame hfcs hmin hmax, hnone]

/-- Who is asked. -/
def Asks (dst targetIp : List Byte) : Prop :=
  (dst = fpgaMacBytes ∨ dst = broadcastBytes) ∧ targetIp = fpgaIpBytes

instance : Decidable (Asks dst targetIp) := inferInstanceAs (Decidable (_ ∧ _))

theorem answer_arpRequestFrame (hdst : dst.length = 6) (hsrc : src.length = 6)
    (hsip : srcIp.length = 4) (htip : targetIp.length = 4) :
    answer (arpRequestFrame dst src srcIp targetIp) =
      if Asks dst targetIp then wireBytes (arpReplyBody src srcIp) else [] := by
  have hdsts : toBytes 6 (ofBytes 48 dst) = dst := hdst ▸ toBytes_ofBytes dst (by omega)
  have hsrcs : toBytes 6 (ofBytes 48 src) = src := hsrc ▸ toBytes_ofBytes src (by omega)
  have hsips : toBytes 4 (ofBytes 32 srcIp) = srcIp := hsip ▸ toBytes_ofBytes srcIp (by omega)
  have htips : toBytes 4 (ofBytes 32 targetIp) = targetIp :=
    htip ▸ toBytes_ofBytes targetIp (by omega)
  obtain ⟨body, hframe, hbody⟩ : ∃ body, arpRequestFrame dst src srcIp targetIp =
      preamble ++ body ++ fcsBytes body ∧
      body = (EthHeader.mk (ofBytes 48 dst) (ofBytes 48 src) arpEthertype).toBytes ++
        (arpPayload arpOpcodeRequest (ofBytes 48 src) (ofBytes 32 srcIp) 0 (ofBytes 32 targetIp) ++
          []) := by
    refine ⟨dst ++ src ++ [0x08#8, 0x06#8] ++ ([0x00#8, 0x01#8, 0x08#8, 0x00#8, 0x06#8, 0x04#8,
      0x00#8, 0x01#8] ++ src ++ srcIp ++ [0x00#8, 0x00#8, 0x00#8, 0x00#8, 0x00#8, 0x00#8] ++
        targetIp), ?_, ?_⟩
    · rw [← wireBytes_eq, ← appendEthFcs_preamble, arpRequestFrame]
      simp only [List.append_assoc]
    · have htype : toBytes 2 arpEthertype = [0x08#8, 0x06#8] := rfl
      have hfixed : toBytes 2 arpHwTypeEthernet ++ toBytes 2 arpProtoTypeIpv4 ++
          [arpHwLenEthernet] ++ [arpProtoLenIpv4] ++ toBytes 2 arpOpcodeRequest =
            [0x00#8, 0x01#8, 0x08#8, 0x00#8, 0x06#8, 0x04#8, 0x00#8, 0x01#8] := rfl
      have hnobody : toBytes 6 (0 : BitVec 48) =
          [0x00#8, 0x00#8, 0x00#8, 0x00#8, 0x00#8, 0x00#8] := rfl
      rw [EthHeader.toBytes, arpPayload, hdsts, hsrcs, hsips, htips, htype, hfixed, hnobody,
        List.append_nil]
  have hlen : body.length = 42 := by
    rw [hbody, List.length_append, EthHeader.length_toBytes, List.append_nil, length_arpPayload]
  have hfpga : ofBytes 48 dst = fpgaMac ↔ dst = fpgaMacBytes := by
    rw [ofBytes_eq_iff _ _ (by omega), hdst]
    rfl
  have hbroadcast : ofBytes 48 dst = broadcastMac ↔ dst = broadcastBytes := by
    rw [ofBytes_eq_iff _ _ (by omega), hdst]
    rfl
  have hrequester : (bodyPacket body).arpRequester =
      if Asks dst targetIp then some (ofBytes 48 src, ofBytes 32 srcIp) else none := by
    rw [hbody, arpRequester_arpPayload, htips]
    exact if_congr (and_congr (or_congr hfpga hbroadcast) Iff.rfl) rfl rfl
  rw [hframe, answer_frame (length_fcsBytes body) (by omega) (by omega), hrequester,
    ← wireFrame_arpReply hsrc hsip]
  by_cases hasks : Asks dst targetIp
  · rw [if_pos hasks, if_pos hasks]
  · rw [if_neg hasks, if_neg hasks]

end Answers

end ArtyEthernet.Testbench
