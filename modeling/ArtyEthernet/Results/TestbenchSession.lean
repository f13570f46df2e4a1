import ArtyEthernet.Proofs.TestbenchRuns
import ArtyEthernet.Results.UdpRequest

/-!
# Frame in, frame out

The test bench sends the endpoint one frame after another and collects after each. While no timer
ticks every frame is answered as if it were the only one.
-/

namespace ArtyEthernet.Testbench
open Words

/-- The cycles a session takes at most. -/
def sessionCycles (probes : List (List Byte × ℕ)) : ℕ :=
  (probes.map fun p => 2 * p.1.length + 1 + p.2).sum

theorem probe_between {prior : List RxPins} (h : Between prior) (probes : List (List Byte × ℕ))
    (hlong : ∀ p ∈ probes, 238 ≤ p.2) (hcalm : Calm prior (sessionCycles probes)) :
    probe (runFrom prior) probes = probes.map fun p => answer p.1 := by
  induction probes generalizing prior with
  | nil => rfl
  | cons p probes ih =>
    have hsum : sessionCycles (p :: probes) = 2 * p.1.length + 1 + p.2 + sessionCycles probes :=
      List.sum_cons
    unfold Calm at hcalm
    rw [hsum] at hcalm
    obtain ⟨m, hm, hcollect, hbetween⟩ := probe_frame h p.1 (hlong p List.mem_cons_self)
      (show _ % 25000000 + _ < _ by omega)
    have hrest := ih hbetween (fun q hq => hlong q (List.mem_cons_of_mem p hq)) (by
      unfold Calm
      simp only [List.length_append, sentPins, length_nibblePins, List.length_singleton,
        List.length_replicate]
      omega)
    change (collectTxFrame (sendRxFrame (runFrom prior) p.1) p.2).1 ::
      probe (collectTxFrame (sendRxFrame (runFrom prior) p.1) p.2).2 probes = _
    rw [hcollect, hrest]
    rfl

/-- From a quiescent endpoint on, while no timer ticks, each frame is answered as if it were the
only one: whatever frames the test bench sends, well formed or not, it collects the reply of each
that asks for one, and nothing after any other. -/
theorem bench_probes (prior : List RxPins) (probes : List (List Byte × ℕ))
    (hquiescent : (runFrom prior).Quiescent) (hlong : ∀ p ∈ probes, 238 ≤ p.2)
    (hcalm : Calm prior (sessionCycles probes)) :
    probe (runFrom prior) probes = probes.map fun p => answer p.1 :=
  probe_between (between_quiescent hquiescent) probes hlong hcalm

def hostMacBytes : List Byte := [0x66, 0x55, 0x44, 0x33, 0x22, 0x11]
def hostIpBytes : List Byte := [192, 168, 1, 10]
def otherIpBytes : List Byte := [192, 168, 1, 101]

def pingBody : List Byte :=
  fpgaMacBytes ++ [0x0a, 0x0b, 0x0c, 0x0d, 0x0e, 0x0f, 0x08, 0x00, 0x70, 0x69, 0x6e, 0x67]

/-- A short packet for the endpoint that is no ARP. -/
def validRxFrame : List Byte := appendEthFcs (preamble ++ pingBody)

def wrongDst : List Byte := (validRxFrame.set 8 0x02).set 13 0x02

def broadcastRx : List Byte :=
  (List.range 6).foldl (fun frame i => frame.set (8 + i) 0xff) validRxFrame

/-- What `main` sends, and how long it collects. -/
def mainProbes : List (List Byte × ℕ) :=
  [(validRxFrame, 512), (wrongDst, 256), (broadcastRx, 512),
    (arpRequestFrame broadcastBytes hostMacBytes hostIpBytes fpgaIpBytes, 768),
    (arpRequestFrame broadcastBytes hostMacBytes hostIpBytes otherIpBytes, 768),
    (udpRequestFrame fpgaMacBytes hostMacBytes hostIpBytes fpgaIpBytes 49152 40000 0, 1024),
    (udpRequestFrame fpgaMacBytes hostMacBytes hostIpBytes otherIpBytes 49152 40000 0, 768),
    (udpRequestFrame fpgaMacBytes hostMacBytes hostIpBytes fpgaIpBytes 49152 4321 0, 768),
    (udpRequestFrame fpgaMacBytes hostMacBytes hostIpBytes fpgaIpBytes 49152 40000 0x2000, 768)]

theorem answer_ping (dst : List Byte) (hdst : dst.length = 6) :
    answer (preamble ++ (dst ++ pingBody.drop 6) ++ fcsBytes pingBody) = [] := by
  have hlen : (dst ++ pingBody.drop 6).length = 18 := by
    rw [List.length_append, hdst]
    rfl
  have htype : (dst ++ pingBody.drop 6).drop 12 = pingBody.drop 12 := by
    rw [List.drop_append, hdst, List.drop_eq_nil_of_le (by omega)]
    rfl
  refine answer_other (length_fcsBytes pingBody) (by omega) (by omega) ?_
  rw [htype]
  decide

theorem quiescent_idle {n : ℕ} (hmin : 239 ≤ n) (hmax : n < 25000000) :
    (runFrom (List.replicate n idlePin)).Quiescent := by
  obtain ⟨n, rfl⟩ := Nat.exists_eq_add_of_le' (show 1 ≤ n by omega)
  have hcalm : Calm [] (([] : List RxPins).length + 1 + (List.replicate n idlePin).length) := by
    rw [List.length_replicate, Calm, List.length_nil]
    omega
  have hserved : Served [] [] idlePin (List.replicate n idlePin) :=
    (between_quiescent quiescent_reset).serve (by simp) rfl idle_replicate hcalm
  obtain ⟨base, new, waiting, sent, held, left, hserving, -⟩ := hserved.serving
  rw [List.length_replicate, Nat.sub_eq_zero_of_le (by omega)] at hserving
  exact hserving.quiescent hserved.closed

/-- `main` collects one reply, to the fourth frame. -/
theorem bench_probes_main :
    probe (runFrom (List.replicate 528 idlePin)) mainProbes =
      [[], [], [], wireBytes (arpReplyBody hostMacBytes hostIpBytes), [], [], [], [], []] := by
  have hvalid : validRxFrame = preamble ++ (pingBody.take 6 ++ pingBody.drop 6) ++
      fcsBytes pingBody := (appendEthFcs_preamble pingBody).trans (wireBytes_eq pingBody)
  have hwrong : wrongDst = preamble ++ ([0x02, 0, 0, 0, 0, 0x02] ++ pingBody.drop 6) ++
      fcsBytes pingBody := by
    rw [wrongDst, hvalid]
    rfl
  have hbroadcast : broadcastRx = preamble ++ (broadcastBytes ++ pingBody.drop 6) ++
      fcsBytes pingBody := by
    rw [broadcastRx, hvalid]
    rfl
  refine (bench_probes _ mainProbes (quiescent_idle (by omega) (by omega)) (by decide) ?_).trans ?_
  · decide +kernel
  · simp only [mainProbes, List.map_cons, List.map_nil]
    rw [hvalid, hwrong, hbroadcast, answer_ping _ rfl, answer_ping _ rfl, answer_ping _ rfl,
      answer_arpRequestFrame rfl rfl rfl rfl, answer_arpRequestFrame rfl rfl rfl rfl,
      answer_udpRequestFrame _ _ _ rfl rfl rfl rfl, answer_udpRequestFrame _ _ _ rfl rfl rfl rfl,
      answer_udpRequestFrame _ _ _ rfl rfl rfl rfl, answer_udpRequestFrame _ _ _ rfl rfl rfl rfl,
      if_pos (by decide), if_neg (by decide)]

end ArtyEthernet.Testbench
