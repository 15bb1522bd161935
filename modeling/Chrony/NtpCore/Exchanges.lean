import Chrony.Local
import Chrony.NtpCore.Handlers
import Chrony.NtpCore.Measurement
import Chrony.SourceStats.Limits

/-!
# Exchanges with a Server

A client which measures the offset of its clock in the basic and the interleaved mode. Its packets
and those of the server can be lost, delayed, duplicated and reordered, and there are packets which
the server did not send. The clock is corrected by other modules.

The random timestamps of the requests are never repeated, and a request is always formed. The
responses are not saved for a hardware timestamp of the request.

## Main results

* `run_sample_error`: the error of a measurement is at most its root distance.
-/

namespace Chrony.NtpCore.Measurement

/-! ### The association -/

/-- The adjustment of a local timestamp in `NCR_SlewTimes`. -/
def Stamp.slew (change : Local.Change) (stamp : Stamp) : Stamp :=
  if stamp.ts = 0 then stamp else { stamp with ts := change.adjust stamp.ts }

namespace Association

/-- `NCR_SlewTimes`. -/
def slewTimes (change : Local.Change) (a : Association) : Association :=
  { a with
    localRx := a.localRx.slew change
    localTx := a.localTx.slew change
    prevLocalTx := a.prevLocalTx.slew change
    initLocalRx := a.initLocalRx.slew change }

/-- `NCR_ResetInstance`. The transmit timestamp is kept. -/
def reset (a : Association) : Association :=
  { a with
    presendDone := 0
    remotePoll := 0
    remoteRootDelay := 0
    remoteRootDispersion := 0
    validRx := false
    validTimestamps := false
    remoteNtpRx := 0
    remoteNtpTx := 0
    localNtpRx := 0
    localNtpTx := 0
    localRx := .zero
    prevLocalTx := .zero
    prevLocalPoll := 0
    updatedInitTimestamps := false
    initRemoteNtpTx := 0
    initLocalRx := .zero }

/-- **Both models reset the association in the same way.** -/
theorem reset_agrees {inst : Instance} {a : Association} (h : Agrees inst a) :
    Agrees inst.reset a.reset :=
  { h with
    validRx := rfl
    validTimestamps := rfl
    remoteNtpRx := rfl
    remoteNtpTx := rfl
    localNtpRx := rfl
    localNtpTx := rfl
    localRx := seconds_zero.symm
    prevLocalTx := seconds_zero.symm
    updatedInitTimestamps := rfl
    initRemoteNtpTx := rfl
    initLocalRx := seconds_zero.symm }

/-- `update_tx_timestamp`, for a packet with these timestamps. -/
def updateTxTimestamp (newTxTs : Stamp) (receiveTs transmitTs : BitVec 64) (a : Association) :
    Association :=
  if a.localTx.ts = 0 then a
  else if compareNtp64 receiveTs a.localNtpRx ≠ 0 ∨ compareNtp64 transmitTs a.localNtpTx ≠ 0 then a
  else
    let delay := newTxTs.ts - a.localTx.ts
    if delay < 0 ∨ delay > maxTxDelay then a else { a with localTx := newTxTs }

end Association

/-- The timestamps of a request, and the time when it leaves the client. -/
structure Request where
  originateTs : BitVec 64
  receiveTs : BitVec 64
  transmitTs : BitVec 64
  departure : ℚ
  deriving DecidableEq

namespace Association

/-- `transmit_packet` in the client mode, with random timestamps. A request in the interleaved
mode has the receive timestamp of the last response, and a receive timestamp if there was a
response. -/
def request (interleaved : Bool) (receiveTs transmitTs : BitVec 64) (departure : ℚ)
    (a : Association) : Request :=
  if interleaved ∧ a.interleaved ∧ a.localTx.ts ≠ 0 then
    ⟨a.remoteNtpRx, if a.localRx.ts = 0 then 0 else receiveTs, transmitTs, departure⟩
  else ⟨0, 0, transmitTs, departure⟩

/-- `transmit_timeout`, with the time of the request. The polling interval and the state of the
presend are determined by code which is modelled elsewhere. -/
def transmit (request : Request) (txTs : ℚ × ℚ) (presendDone localPoll : ℤ) (a : Association) :
    Association :=
  { a with
    validRx := false
    updatedInitTimestamps := false
    presendDone
    localPoll
    localTx := ⟨txTs.1, txTs.2, 0, 0⟩
    localNtpRx := request.receiveTs
    localNtpTx := request.transmitTs }

end Association

/-! ### The exchanges -/

/-- What is assumed about the clock of the client: the rate at which its error changes, and the
limits of its scale, which is one at the start. -/
structure Setting where
  eraSplit : ℤ
  rate : ℚ
  minScale : ℚ
  maxScale : ℚ
  rate_nonneg : 0 ≤ rate
  minScale_pos : 0 < minScale
  minScale_le : minScale ≤ 1
  maxScale_ge : 1 ≤ maxScale

/-- The error of a clock changes at the rate which is assumed. -/
def Setting.Drifts (setting : Setting) (clock : ℚ → ℚ) : Prop :=
  ∀ s t, |(clock t - t) - (clock s - s)| ≤ setting.rate * |clock t - clock s|

/-- How much the estimates of errors can be off after corrections of the frequency. -/
def Setting.growth (setting : Setting) : ℚ := setting.maxScale / setting.minScale

/-- A response of the server, with the times when the request arrives and the response leaves. -/
structure ServerResponse where
  request : Request
  arrival : ℚ
  departure : ℚ
  message : Packet

namespace ServerResponse

/-- The server is synchronised. -/
def Synced (response : ServerResponse) : Prop :=
  response.message.leap ≠ .unsynchronised ∧ response.message.stratum < ntpMaxStratum ∧
    response.message.stratum ≠ ntpInvalidStratum

/-- The maximum error of the clock of the server. -/
def root (response : ServerResponse) : ℚ :=
  response.message.rootDelay / 2 + response.message.rootDispersion

/-- **A response of the server**, in the basic or the interleaved mode. The transmit timestamp
in the interleaved mode belongs to the earlier response which the request refers to. -/
structure IsHonest (setting : Setting) (sent : List Request) (responses : List ServerResponse)
    (now : ℚ) (response : ServerResponse) : Prop where
  request_mem : response.request ∈ sent
  arrival : response.request.departure ≤ response.arrival
  departure : response.departure ≤ now
  receiveTs_fresh : ∀ r ∈ responses, r.message.receiveTs ≠ response.message.receiveTs
  receive : response.Synced →
    |time setting.eraSplit response.message.receiveTs - response.arrival| ≤ response.root
  transmit :
    (response.message.originateTs = response.request.transmitTs ∧
      (response.Synced →
        |time setting.eraSplit response.message.transmitTs - response.departure| ≤
          response.root)) ∨
    (response.message.originateTs = response.request.receiveTs ∧
      ∃ previous ∈ responses, previous.message.receiveTs = response.request.originateTs ∧
        (previous.Synced →
          |time setting.eraSplit response.message.transmitTs - previous.departure| ≤
            previous.root))
  netCorrection :
    response.message.netCorrection.getD 0 ≤ response.arrival - response.request.departure

theorem IsHonest.mono {setting : Setting} {now now' : ℚ} {sent sent' : List Request}
    {responses : List ServerResponse} {response : ServerResponse}
    (h : response.IsHonest setting sent responses now) (hsent : ∀ r ∈ sent, r ∈ sent')
    (hnow : now ≤ now') : response.IsHonest setting sent' responses now' :=
  { h with
    request_mem := hsent _ h.request_mem
    departure := h.departure.trans hnow }

end ServerResponse

/-- The clock of the client: what it would have shown, as it is now, and its scale, which is the
product of the corrections of the frequency. -/
structure ClientClock where
  now : ℚ
  read : ℚ → ℚ
  scale : ℚ

namespace ClientClock

/-- A timestamp is captured at a time, with an error which is estimated. -/
def IsCaptured (clock : ClientClock) (ts err at' : ℚ) : Prop :=
  ts ≠ 0 ∧ |ts - clock.read at'| ≤ err

/-- **A timestamp is right** at a time which has passed, after all corrections of the clock. -/
structure IsAccurate (setting : Setting) (clock : ClientClock) (stamp : Stamp) (at' : ℚ) :
    Prop where
  ts_ne : stamp.ts ≠ 0
  err_nonneg : 0 ≤ stamp.err
  error_le : setting.minScale * |stamp.ts - clock.read at'| ≤ clock.scale * stamp.err
  le_now : at' ≤ clock.now

/-- A correction, after which the clock shows other times. -/
def slew (change : Local.Change) (read : ℚ → ℚ) (clock : ClientClock) : ClientClock :=
  { clock with read, scale := clock.scale * (1 - change.dfreq) }

/-- The times which have passed are adjusted, and the assumptions are kept. -/
structure CanSlew (setting : Setting) (clock : ClientClock) (change : Local.Change)
    (read : ℚ → ℚ) : Prop where
  dfreq_lt : change.dfreq < 1
  read_eq : ∀ t ≤ clock.now, read t = change.adjust (clock.read t)
  drifts : setting.Drifts read
  scale_ge : setting.minScale ≤ clock.scale * (1 - change.dfreq)
  scale_le : clock.scale * (1 - change.dfreq) ≤ setting.maxScale

variable {setting : Setting} {clock : ClientClock} {stamp : Stamp} {at' : ℚ}

theorem IsAccurate.wait (h : clock.IsAccurate setting stamp at') {duration : ℚ}
    (hduration : 0 ≤ duration) :
    IsAccurate setting { clock with now := clock.now + duration } stamp at' :=
  { h with le_now := h.le_now.trans (le_add_of_nonneg_right hduration) }

/-- A new timestamp is accurate. -/
theorem IsCaptured.isAccurate (h : clock.IsCaptured stamp.ts stamp.err at')
    (hscale : setting.minScale ≤ clock.scale) (hnow : at' ≤ clock.now) :
    clock.IsAccurate setting stamp at' where
  ts_ne := h.1
  err_nonneg := (abs_nonneg _).trans h.2
  error_le := mul_le_mul hscale h.2 (abs_nonneg _) (setting.minScale_pos.le.trans hscale)
  le_now := hnow

/-- **The error of a timestamp, after all corrections.** -/
theorem IsAccurate.abs_le (h : clock.IsAccurate setting stamp at')
    (hscale : clock.scale ≤ setting.maxScale) :
    |stamp.ts - clock.read at'| ≤ setting.growth * stamp.err := by
  rw [Setting.growth, div_mul_eq_mul_div, le_div_iff₀ setting.minScale_pos, mul_comm]
  exact h.error_le.trans (mul_le_mul_of_nonneg_right hscale h.err_nonneg)

theorem adjust_sub_adjust (change : Local.Change) (s t : ℚ) :
    change.adjust s - change.adjust t = (s - t) * (1 - change.dfreq) := by
  simp only [Local.Change.adjust, Local.adjustTimespec]
  ring

/-- **A correction of the clock keeps a timestamp accurate.** -/
theorem IsAccurate.slew {change : Local.Change} {read : ℚ → ℚ}
    (h : clock.IsAccurate setting stamp at') (hslew : clock.CanSlew setting change read)
    (hne : stamp.ts ≠ 0 → change.adjust stamp.ts ≠ 0) :
    (clock.slew change read).IsAccurate setting (stamp.slew change) at' := by
  have hfactor : 0 < 1 - change.dfreq := sub_pos.mpr hslew.dfreq_lt
  rw [Stamp.slew, if_neg h.ts_ne]
  refine ⟨hne h.ts_ne, h.err_nonneg, ?_, h.le_now⟩
  have herror := mul_le_mul_of_nonneg_right h.error_le hfactor.le
  calc setting.minScale * |change.adjust stamp.ts - read at'|
      = setting.minScale * |stamp.ts - clock.read at'| * (1 - change.dfreq) := by
        rw [hslew.read_eq at' h.le_now, adjust_sub_adjust, abs_mul, abs_of_pos hfactor, mul_assoc]
    _ ≤ clock.scale * stamp.err * (1 - change.dfreq) := herror
    _ = clock.scale * (1 - change.dfreq) * stamp.err := by ring

end ClientClock

/-- The client and the packets which were sent. -/
structure World where
  clock : ClientClock
  assoc : Association
  sent : List Request
  responses : List ServerResponse

/-- The steps. A response is received any number of times. -/
inductive Action
  | wait (duration : ℚ)
  | transmit (interleaved : Bool) (receiveTs transmitTs : BitVec 64) (txTs : ℚ × ℚ)
      (presendDone localPoll : ℤ)
  | processTx (request : Request) (txTs : Stamp)
  | respond (response : ServerResponse)
  | receive (env : Env) (response : ServerResponse) (rxTs : Stamp)
  | receiveOther (env : Env) (message : Packet) (rxTs : Stamp)
  | slew (change : Local.Change) (read : ℚ → ℚ)
  | reset

namespace World

variable (setting : Setting)

def step (w : World) : Action → World
  | .wait duration => { w with clock := { w.clock with now := w.clock.now + duration } }
  | .transmit interleaved receiveTs transmitTs txTs presendDone localPoll =>
      let request := w.assoc.request interleaved receiveTs transmitTs w.clock.now
      { w with
        assoc := w.assoc.transmit request txTs presendDone localPoll
        sent := request :: w.sent }
  | .processTx request txTs =>
      { w with assoc := w.assoc.updateTxTimestamp txTs request.receiveTs request.transmitTs }
  | .respond response => { w with responses := response :: w.responses }
  | .receive env response rxTs =>
      { w with assoc := (w.assoc.processResponse env response.message rxTs).1 }
  | .receiveOther env message rxTs =>
      { w with assoc := (w.assoc.processResponse env message rxTs).1 }
  | .slew change read =>
      { w with
        clock := w.clock.slew change read
        assoc := w.assoc.slewTimes change }
  | .reset => { w with assoc := w.assoc.reset }

/-- The measurement which is accumulated in a step. -/
def measured (w : World) : Action → Option Measured
  | .receive env response rxTs => (w.assoc.processResponse env response.message rxTs).2
  | .receiveOther env message rxTs => (w.assoc.processResponse env message rxTs).2
  | _ => none

/-- A random timestamp is not used in another request. -/
def IsFresh (w : World) (ts : BitVec 64) : Prop :=
  ts ≠ 0 ∧ ∀ r ∈ w.sent, r.receiveTs ≠ ts ∧ r.transmitTs ≠ ts

/-- **What can happen.** A message which the server did not send does not have a timestamp of the
last request, or it is not authenticated. The skew of the source covers the rate of the clock, and
the corrections of transparent clocks are not greater than the delays. -/
def Possible (w : World) : Action → Prop
  | .wait duration => 0 ≤ duration
  | .transmit _ receiveTs transmitTs txTs _ _ =>
      w.IsFresh receiveTs ∧ w.IsFresh transmitTs ∧ receiveTs ≠ transmitTs ∧
        w.clock.IsCaptured txTs.1 txTs.2 w.clock.now
  | .processTx request txTs =>
      request ∈ w.sent ∧ w.clock.IsCaptured txTs.ts txTs.err request.departure
  | .respond response => response.IsHonest setting w.sent w.responses w.clock.now
  | .receive env response rxTs =>
      response ∈ w.responses ∧ env.sourceStats.ntpEraSplit = setting.eraSplit ∧
        setting.rate ≤ 2 * getSkew env.stats ∧ w.clock.IsCaptured rxTs.ts rxTs.err w.clock.now ∧
        0 ≤ rxTs.rxDuration ∧
        rxTs.netCorrection - rxTs.rxDuration ≤ w.clock.now - response.departure
  | .receiveOther env message _ =>
      env.checkAuth = false ∨ (message.originateTs ≠ w.assoc.localNtpTx ∧
        message.originateTs ≠ w.assoc.localNtpRx) ∨ message.originateTs = 0
  | .slew change read =>
      w.clock.CanSlew setting change read ∧
        ∀ stamp ∈ [w.assoc.localRx, w.assoc.localTx, w.assoc.prevLocalTx],
          stamp.ts ≠ 0 → change.adjust stamp.ts ≠ 0
  | .reset => True

/-- A new association in the client mode. -/
structure IsInitial (w : World) : Prop where
  drifts : setting.Drifts w.clock.read
  scale : w.clock.scale = 1
  mode : w.assoc.mode = .client
  validTimestamps : w.assoc.validTimestamps = false
  localNtpRx : w.assoc.localNtpRx = 0
  localNtpTx : w.assoc.localNtpTx = 0
  sent : w.sent = []
  responses : w.responses = []

/-- The states of all runs. -/
inductive Reachable : World → Prop
  | init {w : World} (h : w.IsInitial setting) : Reachable w
  | step {w : World} {action : Action} (h : Reachable w) (hpossible : w.Possible setting action) :
      Reachable (w.step action)

/-! ### The invariant -/

/-- The packets which were sent: the random timestamps and the receive timestamps of the server
identify them. -/
structure PacketsInv (w : World) : Prop where
  departure_le : ∀ r ∈ w.sent, r.departure ≤ w.clock.now
  transmitTs_ne : ∀ r ∈ w.sent, r.transmitTs ≠ 0
  transmitTs_inj : ∀ r ∈ w.sent, ∀ r' ∈ w.sent, r.transmitTs = r'.transmitTs → r = r'
  receiveTs_inj : ∀ r ∈ w.sent, ∀ r' ∈ w.sent, r.receiveTs ≠ 0 → r.receiveTs = r'.receiveTs → r = r'
  transmitTs_ne_receiveTs : ∀ r ∈ w.sent, ∀ r' ∈ w.sent, r.transmitTs ≠ r'.receiveTs
  response_inj : ∀ r ∈ w.responses, ∀ r' ∈ w.responses,
    r.message.receiveTs = r'.message.receiveTs → r = r'
  honest : ∀ r ∈ w.responses, ∃ responses, (∀ r' ∈ responses, r' ∈ w.responses) ∧
    r.IsHonest setting w.sent responses w.clock.now

/-- The association waits for responses to a request. -/
structure IsCurrent (w : World) (request : Request) : Prop where
  mem : request ∈ w.sent
  transmitTs : request.transmitTs = w.assoc.localNtpTx
  receiveTs : request.receiveTs = w.assoc.localNtpRx
  localTx : w.clock.IsAccurate setting w.assoc.localTx request.departure
  originateTs : w.assoc.validRx = false → request.receiveTs ≠ 0 →
    request.originateTs = w.assoc.remoteNtpRx

/-- The timestamps of the association are those of a response. -/
structure IsLast (w : World) (response : ServerResponse) (received : ℚ) : Prop where
  mem : response ∈ w.responses
  synced : response.Synced
  remoteNtpRx : response.message.receiveTs = w.assoc.remoteNtpRx
  rootDelay : response.message.rootDelay = w.assoc.remoteRootDelay
  rootDispersion : response.message.rootDispersion = w.assoc.remoteRootDispersion
  localRx : w.clock.IsAccurate setting w.assoc.localRx received
  departure_le : response.departure ≤ received
  rxDuration : 0 ≤ w.assoc.localRx.rxDuration
  netCorrection : w.assoc.localRx.netCorrection - w.assoc.localRx.rxDuration ≤
    received - response.departure
  prevLocalTx : w.assoc.prevLocalTx.ts ≠ 0 →
    w.clock.IsAccurate setting w.assoc.prevLocalTx response.request.departure ∧
      w.assoc.prevLocalTx.netCorrection ≤ response.arrival - response.request.departure

structure Inv (w : World) : Prop where
  drifts : setting.Drifts w.clock.read
  scale_ge : setting.minScale ≤ w.clock.scale
  scale_le : w.clock.scale ≤ setting.maxScale
  mode : w.assoc.mode = .client
  packets : w.PacketsInv setting
  current : w.assoc.localNtpTx ≠ 0 → ∃ request, w.IsCurrent setting request
  noCurrent : w.assoc.localNtpTx = 0 → w.assoc.localNtpRx = 0
  last : w.assoc.validTimestamps = true → ∃ response received, w.IsLast setting response received

variable {setting : Setting} {w : World}

/-! ### Steps which keep the association -/

@[simp] theorem slew_netCorrection (change : Local.Change) (stamp : Stamp) :
    (stamp.slew change).netCorrection = stamp.netCorrection := by
  rw [Stamp.slew]
  split
  · rfl
  · rfl

@[simp] theorem slew_rxDuration (change : Local.Change) (stamp : Stamp) :
    (stamp.slew change).rxDuration = stamp.rxDuration := by
  rw [Stamp.slew]
  split
  · rfl
  · rfl

theorem slew_ts_eq_zero {change : Local.Change} {stamp : Stamp} (h : stamp.ts = 0) :
    (stamp.slew change).ts = 0 := by
  rw [Stamp.slew, if_pos h, h]

theorem inv_init (h : w.IsInitial setting) : w.Inv setting where
  drifts := h.drifts
  scale_ge := h.scale ▸ setting.minScale_le
  scale_le := h.scale ▸ setting.maxScale_ge
  mode := h.mode
  packets := by
    constructor <;> simp [h.sent, h.responses]
  current := fun hne => absurd h.localNtpTx hne
  noCurrent := fun _ => h.localNtpRx
  last := by simp [h.validTimestamps]

theorem inv_wait (h : w.Inv setting) {duration : ℚ} (hduration : 0 ≤ duration) :
    (w.step (.wait duration)).Inv setting := by
  have hnow : w.clock.now ≤ w.clock.now + duration := le_add_of_nonneg_right hduration
  refine { h with packets := ?_, current := fun hne => ?_, last := fun hvalid => ?_ }
  · refine { h.packets with
      departure_le := fun r hr => (h.packets.departure_le r hr).trans hnow
      honest := fun r hr => ?_ }
    obtain ⟨responses, hsubset, hhonest⟩ := h.packets.honest r hr
    exact ⟨responses, hsubset, hhonest.mono (fun _ hr => hr) hnow⟩
  · obtain ⟨request, hcurrent⟩ := h.current hne
    exact ⟨request, { hcurrent with localTx := hcurrent.localTx.wait hduration }⟩
  · obtain ⟨response, received, hlast⟩ := h.last hvalid
    exact ⟨response, received, { hlast with
      localRx := hlast.localRx.wait hduration
      prevLocalTx := fun hne =>
        ⟨(hlast.prevLocalTx hne).1.wait hduration, (hlast.prevLocalTx hne).2⟩ }⟩

theorem inv_respond (h : w.Inv setting) {response : ServerResponse}
    (hresponse : response.IsHonest setting w.sent w.responses w.clock.now) :
    (w.step (.respond response)).Inv setting := by
  have hcons : ∀ r ∈ w.responses, r ∈ response :: w.responses :=
    fun _ hr => List.mem_cons_of_mem _ hr
  refine { h with packets := ?_, current := fun hne => ?_, last := fun hvalid => ?_ }
  · refine { h.packets with response_inj := ?_, honest := ?_ }
    · intro r hr r' hr' heq
      rcases List.mem_cons.mp hr with rfl | hmem <;> rcases List.mem_cons.mp hr' with rfl | hmem'
      · rfl
      · exact absurd heq.symm (hresponse.receiveTs_fresh r' hmem')
      · exact absurd heq (hresponse.receiveTs_fresh r hmem)
      · exact h.packets.response_inj r hmem r' hmem' heq
    · intro r hr
      rcases List.mem_cons.mp hr with rfl | hr
      · exact ⟨w.responses, hcons, hresponse⟩
      · obtain ⟨responses, hsubset, hhonest⟩ := h.packets.honest r hr
        exact ⟨responses, fun r' hr' => hcons r' (hsubset r' hr'), hhonest⟩
  · obtain ⟨request, hcurrent⟩ := h.current hne
    exact ⟨request, { hcurrent with }⟩
  · obtain ⟨last, received, hlast⟩ := h.last hvalid
    exact ⟨last, received, { hlast with mem := hcons _ hlast.mem }⟩

theorem inv_slew (h : w.Inv setting) {change : Local.Change} {read : ℚ → ℚ}
    (hpossible : w.Possible setting (.slew change read)) :
    (w.step (.slew change read)).Inv setting := by
  obtain ⟨hslew, hne⟩ := hpossible
  simp only [List.forall_mem_cons] at hne
  obtain ⟨hrx, htx, hprev, -⟩ := hne
  refine { h with
    drifts := hslew.drifts
    scale_ge := hslew.scale_ge
    scale_le := hslew.scale_le
    packets := { h.packets with }
    current := fun hne => ?_
    last := fun hvalid => ?_ }
  · obtain ⟨request, hcurrent⟩ := h.current hne
    exact ⟨request, { hcurrent with localTx := hcurrent.localTx.slew hslew htx }⟩
  · obtain ⟨response, received, hlast⟩ := h.last hvalid
    refine ⟨response, received, { hlast with
      localRx := hlast.localRx.slew hslew hrx
      rxDuration := (slew_rxDuration ..).symm ▸ hlast.rxDuration
      netCorrection := ?_
      prevLocalTx := fun hne => ?_ }⟩
    · simpa [step, Association.slewTimes] using hlast.netCorrection
    · have hprevNe : w.assoc.prevLocalTx.ts ≠ 0 := fun hzero => hne (slew_ts_eq_zero hzero)
      obtain ⟨haccurate, hcorrection⟩ := hlast.prevLocalTx hprevNe
      exact ⟨haccurate.slew hslew hprev, by simpa [step, Association.slewTimes]⟩

theorem inv_reset (h : w.Inv setting) : (w.step .reset).Inv setting :=
  { h with
    packets := { h.packets with }
    current := fun hne => absurd rfl hne
    noCurrent := fun _ => rfl
    last := by simp [step, Association.reset] }

/-! ### Requests -/

theorem isCurrent_of_transmitTs (h : w.Inv setting) {request : Request}
    (hmem : request ∈ w.sent) (htransmit : request.transmitTs = w.assoc.localNtpTx) :
    w.IsCurrent setting request := by
  have hne : w.assoc.localNtpTx ≠ 0 := htransmit ▸ h.packets.transmitTs_ne request hmem
  obtain ⟨request', hcurrent⟩ := h.current hne
  have heq := h.packets.transmitTs_inj request hmem request' hcurrent.mem
    (htransmit.trans hcurrent.transmitTs.symm)
  exact heq ▸ hcurrent

theorem inv_processTx (h : w.Inv setting) {request : Request} {txTs : Stamp}
    (hmem : request ∈ w.sent) (hcaptured : w.clock.IsCaptured txTs.ts txTs.err request.departure) :
    (w.step (.processTx request txTs)).Inv setting := by
  have hsame : w.assoc.updateTxTimestamp txTs request.receiveTs request.transmitTs = w.assoc ∨
      (request.transmitTs = w.assoc.localNtpTx ∧
        w.assoc.updateTxTimestamp txTs request.receiveTs request.transmitTs =
          { w.assoc with localTx := txTs }) := by
    rw [Association.updateTxTimestamp]
    split
    next => exact .inl rfl
    next =>
      split
      next => exact .inl rfl
      next hsame =>
        rw [not_or, not_not, not_not, compareNtp64_eq_zero_iff, compareNtp64_eq_zero_iff] at hsame
        dsimp only
        split
        next => exact .inl rfl
        next => exact .inr ⟨hsame.2, rfl⟩
  rw [step]
  rcases hsame with hsame | ⟨htransmit, hupdate⟩
  · rwa [hsame]
  · rw [hupdate]
    have hcurrent := isCurrent_of_transmitTs h hmem htransmit
    have haccurate := hcaptured.isAccurate h.scale_ge (h.packets.departure_le request hmem)
    refine { h with
      packets := { h.packets with }
      current := fun _ => ⟨request, { hcurrent with localTx := haccurate }⟩
      last := fun hvalid => ?_ }
    obtain ⟨response, received, hlast⟩ := h.last hvalid
    exact ⟨response, received, { hlast with }⟩

/-- What a request has of the random timestamps and of the association. -/
theorem request_spec (a : Association) (interleaved : Bool) (receiveTs transmitTs : BitVec 64)
    (departure : ℚ) :
    let request := a.request interleaved receiveTs transmitTs departure
    request.transmitTs = transmitTs ∧ request.departure = departure ∧
      (request.receiveTs = 0 ∨ request.receiveTs = receiveTs) ∧
      (request.receiveTs ≠ 0 → request.originateTs = a.remoteNtpRx) := by
  dsimp only
  rw [Association.request]
  split
  · refine ⟨rfl, rfl, ?_, fun _ => rfl⟩
    dsimp only
    split
    · exact .inl rfl
    · exact .inr rfl
  · exact ⟨rfl, rfl, .inl rfl, fun hne => absurd rfl hne⟩

/-- The timestamps of a new request are not those of another one. -/
structure IsNew (w : World) (request : Request) : Prop where
  departure : request.departure = w.clock.now
  transmitTs_ne : request.transmitTs ≠ 0
  transmitTs_ne_receiveTs : request.transmitTs ≠ request.receiveTs
  other_transmitTs : ∀ r ∈ w.sent, r.transmitTs ≠ request.transmitTs
  other_receiveTs : ∀ r ∈ w.sent, request.receiveTs ≠ 0 → r.receiveTs ≠ request.receiveTs
  other_mixed : ∀ r ∈ w.sent,
    r.transmitTs ≠ request.receiveTs ∧ request.transmitTs ≠ r.receiveTs

theorem request_isNew (h : w.PacketsInv setting) {receiveTs transmitTs : BitVec 64}
    (interleaved : Bool) (hrx : w.IsFresh receiveTs) (htx : w.IsFresh transmitTs)
    (hne : receiveTs ≠ transmitTs) :
    w.IsNew (w.assoc.request interleaved receiveTs transmitTs w.clock.now) := by
  obtain ⟨htransmit, hdeparture, hreceive, -⟩ :=
    request_spec w.assoc interleaved receiveTs transmitTs w.clock.now
  generalize w.assoc.request interleaved receiveTs transmitTs w.clock.now = request at *
  refine
    { departure := hdeparture
      transmitTs_ne := htransmit.trans_ne htx.1
      transmitTs_ne_receiveTs := ?_
      other_transmitTs := fun r hr => htransmit ▸ (htx.2 r hr).2
      other_receiveTs := fun r hr hnonzero => hreceive.resolve_left hnonzero ▸ (hrx.2 r hr).1
      other_mixed := fun r hr => ⟨?_, htransmit ▸ (htx.2 r hr).1.symm⟩ }
  · rw [htransmit]
    rcases hreceive with hzero | hreceive
    · exact hzero ▸ htx.1
    · exact hreceive ▸ hne.symm
  · rcases hreceive with hzero | hreceive
    · exact hzero ▸ h.transmitTs_ne r hr
    · exact hreceive ▸ (hrx.2 r hr).2

/-- A new request keeps what identifies the packets. -/
theorem PacketsInv.send (h : w.PacketsInv setting) {request : Request} (hnew : w.IsNew request)
    (a : Association) :
    PacketsInv setting { w with assoc := a, sent := request :: w.sent } := by
  refine { h with
    departure_le := List.forall_mem_cons.mpr ⟨hnew.departure.le, h.departure_le⟩
    transmitTs_ne := List.forall_mem_cons.mpr ⟨hnew.transmitTs_ne, h.transmitTs_ne⟩
    transmitTs_inj := ?_
    receiveTs_inj := ?_
    transmitTs_ne_receiveTs := ?_
    honest := fun r hr => ?_ }
  · intro r hr r' hr' heq
    rcases List.mem_cons.mp hr with rfl | hmem <;> rcases List.mem_cons.mp hr' with rfl | hmem'
    · rfl
    · exact absurd heq.symm (hnew.other_transmitTs r' hmem')
    · exact absurd heq (hnew.other_transmitTs r hmem)
    · exact h.transmitTs_inj r hmem r' hmem' heq
  · intro r hr r' hr' hnonzero heq
    rcases List.mem_cons.mp hr with rfl | hmem <;> rcases List.mem_cons.mp hr' with rfl | hmem'
    · rfl
    · exact absurd heq.symm (hnew.other_receiveTs r' hmem' hnonzero)
    · exact absurd heq (hnew.other_receiveTs r hmem (heq ▸ hnonzero))
    · exact h.receiveTs_inj r hmem r' hmem' hnonzero heq
  · intro r hr r' hr'
    rcases List.mem_cons.mp hr with rfl | hmem <;> rcases List.mem_cons.mp hr' with rfl | hmem'
    · exact hnew.transmitTs_ne_receiveTs
    · exact (hnew.other_mixed r' hmem').2
    · exact (hnew.other_mixed r hmem).1
    · exact h.transmitTs_ne_receiveTs r hmem r' hmem'
  · obtain ⟨responses, hsubset, hhonest⟩ := h.honest r hr
    exact ⟨responses, hsubset, hhonest.mono (fun _ hr => List.mem_cons_of_mem _ hr) le_rfl⟩

theorem inv_transmit (h : w.Inv setting) {interleaved : Bool} {receiveTs transmitTs : BitVec 64}
    {txTs : ℚ × ℚ} {presendDone localPoll : ℤ} (hrx : w.IsFresh receiveTs)
    (htx : w.IsFresh transmitTs) (hne : receiveTs ≠ transmitTs)
    (hcaptured : w.clock.IsCaptured txTs.1 txTs.2 w.clock.now) :
    (w.step (.transmit interleaved receiveTs transmitTs txTs presendDone localPoll)).Inv
      setting := by
  have hnew := request_isNew h.packets interleaved hrx htx hne
  obtain ⟨-, -, -, horiginate⟩ :=
    request_spec w.assoc interleaved receiveTs transmitTs w.clock.now
  rw [step]
  generalize w.assoc.request interleaved receiveTs transmitTs w.clock.now = request at *
  have haccurate : w.clock.IsAccurate setting ⟨txTs.1, txTs.2, 0, 0⟩ w.clock.now :=
    ClientClock.IsCaptured.isAccurate hcaptured h.scale_ge le_rfl
  refine { h with
    packets := h.packets.send hnew _
    current := fun _ => ⟨request, ?_⟩
    noCurrent := fun hzero => absurd hzero hnew.transmitTs_ne
    last := fun hvalid => ?_ }
  · exact
      { mem := List.mem_cons_self ..
        transmitTs := rfl
        receiveTs := rfl
        localTx := hnew.departure ▸ haccurate
        originateTs := fun _ => horiginate }
  · obtain ⟨response, received, hlast⟩ := h.last hvalid
    exact ⟨response, received, { hlast with }⟩

/-! ### Responses -/

/-- A message which is not valid, or comes after a valid one, is ignored. -/
theorem processResponse_rejected {env : Env} {a : Association} {message : Packet}
    (hmode : a.mode = .client)
    (h : (a.packetTests env.checkAuth message).validPacket = false ∨ a.validRx = true)
    (rxTs : Stamp) : a.processResponse env message rxTs = (a, none) := by
  have hactive : ¬a.mode = .active := by simp [hmode]
  have hupdate : ∀ good,
      a.updateTimestamps message rxTs (a.packetTests env.checkAuth message) good = a := by
    intro good
    rw [Association.updateTimestamps, if_neg, if_neg fun hmode => hactive hmode.1]
    rintro (⟨-, hvalid, hrx⟩ | ⟨hmode, -⟩)
    · rcases h with h | h
      · exact absurd hvalid (by simp [h])
      · exact absurd hrx (by simp [h])
    · exact hactive hmode
  rw [Association.processResponse]
  rw [hupdate]
  split
  next => rfl
  next hrx => rw [if_neg (by simp [h.resolve_right hrx])]

/-- The first valid response to a request is accepted. -/
theorem processResponse_accepted {env : Env} {a : Association} {message : Packet}
    (hmode : a.mode = .client)
    (hvalid : (a.packetTests env.checkAuth message).validPacket = true) (hrx : a.validRx = false)
    (rxTs : Stamp) :
    let t := a.packetTests env.checkAuth message
    let r := a.measure env message rxTs t.interleavedPacket
    let good := decide (a.IsMeasured t) && r.2.goodPacket
    let localTx : Stamp :=
      { a.localTx with
        netCorrection := if a.IsMeasured t then message.netCorrection.getD 0 else 0 }
    a.processResponse env message rxTs =
      ({ a with
          remoteNtpRx := message.receiveTs
          remoteNtpTx := message.transmitTs
          localRx := rxTs
          validTimestamps := t.syncedPacket
          initRemoteNtpTx := 0
          initLocalRx := .zero
          updatedInitTimestamps := false
          localTx
          prevLocalTx := if t.interleavedPacket || !good then localTx else .zero
          validRx := true
          remotePoll := message.poll
          remoteRootDelay := message.rootDelay
          remoteRootDispersion := message.rootDispersion
          prevLocalPoll := a.localPoll },
        if good then some r.1 else none) := by
  intro t r good localTx
  have hfirst : a.mode = .client ∧ t.validPacket = true ∧ (!a.validRx) = true :=
    ⟨hmode, hvalid, by simp [hrx]⟩
  rw [Association.processResponse, Association.updateTimestamps, if_pos (Or.inl hfirst),
    if_neg (by simp [hrx]), if_pos hvalid]

/-- **A valid message of the server is a response to the last request.** In the interleaved mode
it has the transmit timestamp of the response whose receive timestamp is the remote one. -/
theorem match_response (h : w.Inv setting) {response : ServerResponse}
    (hmem : response ∈ w.responses) {auth : Bool}
    (hvalid : (w.assoc.packetTests auth response.message).validPacket = true)
    (hrx : w.assoc.validRx = false) :
    w.IsCurrent setting response.request ∧
      (((w.assoc.packetTests auth response.message).interleavedPacket = false ∧
        (response.Synced →
          |time setting.eraSplit response.message.transmitTs - response.departure| ≤
            response.root)) ∨
      ((w.assoc.packetTests auth response.message).interleavedPacket = true ∧
        ∃ previous ∈ w.responses, previous.message.receiveTs = w.assoc.remoteNtpRx ∧
          (previous.Synced →
            |time setting.eraSplit response.message.transmitTs - previous.departure| ≤
              previous.root))) := by
  obtain ⟨responses, hsubset, hhonest⟩ := h.packets.honest response hmem
  simp only [Tests.validPacket, Tests.test2, Association.packetTests, Bool.and_eq_true,
    Bool.or_eq_true, decide_eq_true_eq, compareNtp64_eq_zero_iff] at hvalid
  obtain ⟨⟨⟨-, htest2⟩, horig, -, -⟩, -⟩ := hvalid
  simp only [Tests.interleavedPacket, Association.packetTests, compareNtp64_eq_zero_iff]
  by_cases hbasic : response.message.originateTs = w.assoc.localNtpTx
  · rcases hhonest.transmit with ⟨horiginate, htransmit⟩ | ⟨horiginate, -⟩
    · exact ⟨isCurrent_of_transmitTs h hhonest.request_mem (horiginate.symm.trans hbasic),
        .inl ⟨by simp [hbasic], htransmit⟩⟩
    · -- a receive timestamp is not the transmit timestamp of the request
      obtain ⟨current, hcurrent⟩ := h.current (hbasic ▸ horig)
      exact absurd (hcurrent.transmitTs.trans (hbasic.symm.trans horiginate))
        (h.packets.transmitTs_ne_receiveTs current hcurrent.mem _ hhonest.request_mem)
  · obtain ⟨hinterleaved, hlocalRx⟩ := htest2.resolve_left hbasic
    have hne : w.assoc.localNtpRx ≠ 0 := hlocalRx ▸ horig
    obtain ⟨current, hcurrent⟩ := h.current fun hzero => hne (h.noCurrent hzero)
    have heq : response.message.originateTs = current.receiveTs :=
      hlocalRx.trans hcurrent.receiveTs.symm
    rcases hhonest.transmit with ⟨horiginate, -⟩ | ⟨horiginate, previous, hprevious, hreceive,
      htransmit⟩
    · exact absurd (horiginate.symm.trans heq)
        (h.packets.transmitTs_ne_receiveTs _ hhonest.request_mem current hcurrent.mem)
    · have hrequest : current = response.request :=
        h.packets.receiveTs_inj current hcurrent.mem _ hhonest.request_mem
          (hcurrent.receiveTs ▸ hne) (heq.symm.trans horiginate)
      subst hrequest
      exact ⟨hcurrent, .inr ⟨by simp [hbasic, hinterleaved, ← hlocalRx], previous,
        hsubset _ hprevious,
        hreceive.trans (hcurrent.originateTs hrx (hcurrent.receiveTs ▸ hne)), htransmit⟩⟩

theorem synced_of_syncedPacket {a : Association} {auth : Bool} {response : ServerResponse}
    (h : (a.packetTests auth response.message).syncedPacket = true) : response.Synced := by
  simp only [Tests.syncedPacket, Association.packetTests, Bool.and_eq_true,
    decide_eq_true_eq] at h
  exact h.1.2

theorem inv_receive (h : w.Inv setting) {env : Env} {response : ServerResponse} {rxTs : Stamp}
    (hpossible : w.Possible setting (.receive env response rxTs)) :
    (w.step (.receive env response rxTs)).Inv setting := by
  obtain ⟨hmem, -, -, hcaptured, hduration, hcorrection⟩ := hpossible
  rw [step]
  by_cases hvalid : (w.assoc.packetTests env.checkAuth response.message).validPacket = true
  swap
  · rwa [processResponse_rejected h.mode (.inl (by simpa using hvalid))]
  by_cases hrx : w.assoc.validRx = true
  · rwa [processResponse_rejected h.mode (.inr hrx)]
  rw [Bool.not_eq_true] at hrx
  rw [processResponse_accepted h.mode hvalid hrx]
  obtain ⟨hcurrent, -⟩ := match_response h hmem hvalid hrx
  obtain ⟨responses, hsubset, hhonest⟩ := h.packets.honest response hmem
  have haccurate : w.clock.IsAccurate setting rxTs w.clock.now :=
    hcaptured.isAccurate h.scale_ge le_rfl
  refine { h with
    packets := { h.packets with }
    current := fun _ => ⟨response.request, { hcurrent with
      localTx := { hcurrent.localTx with }
      originateTs := fun hfalse => absurd hfalse (by simp) }⟩
    last := fun hsynced => ⟨response, w.clock.now,
      { mem := hmem
        synced := synced_of_syncedPacket hsynced
        remoteNtpRx := rfl
        rootDelay := rfl
        rootDispersion := rfl
        localRx := haccurate
        departure_le := hhonest.departure
        rxDuration := hduration
        netCorrection := hcorrection
        prevLocalTx := fun hne => ?_ }⟩ }
  dsimp only at hne ⊢
  split at hne
  next hkept =>
    rw [if_pos hkept]
    refine ⟨{ hcurrent.localTx with }, ?_⟩
    dsimp only
    split
    · exact hhonest.netCorrection
    · exact sub_nonneg.mpr hhonest.arrival
  next => exact absurd rfl hne

/-- A message which the server did not send is ignored. -/
theorem receiveOther_ignored (h : w.Inv setting) {env : Env} {message : Packet} {rxTs : Stamp}
    (hpossible : w.Possible setting (.receiveOther env message rxTs)) :
    w.assoc.processResponse env message rxTs = (w.assoc, none) := by
  refine processResponse_rejected h.mode (.inl ?_) rxTs
  rw [← Bool.not_eq_true]
  intro hvalid
  simp only [Tests.validPacket, Tests.test2, Association.packetTests, Bool.and_eq_true,
    Bool.or_eq_true, decide_eq_true_eq, compareNtp64_eq_zero_iff] at hvalid
  obtain ⟨⟨⟨-, htest2⟩, horig, -, -⟩, hauth⟩ := hvalid
  rcases hpossible with hnoAuth | ⟨hbasic, hinterleaved⟩ | hzero
  · exact absurd hauth (by simp [hnoAuth])
  · rcases htest2 with heq | ⟨-, heq⟩
    · exact hbasic heq
    · exact hinterleaved heq
  · exact horig hzero

/-! ### Runs -/

/-- **Every step keeps the invariant.** -/
theorem step_inv (h : w.Inv setting) {action : Action} (hpossible : w.Possible setting action) :
    (w.step action).Inv setting := by
  cases action with
  | wait duration => exact inv_wait h hpossible
  | transmit interleaved receiveTs transmitTs txTs presendDone localPoll =>
      obtain ⟨hrx, htx, hne, hcaptured⟩ := hpossible
      exact inv_transmit h hrx htx hne hcaptured
  | processTx request txTs => exact inv_processTx h hpossible.1 hpossible.2
  | respond response => exact inv_respond h hpossible
  | receive env response rxTs => exact inv_receive h hpossible
  | receiveOther env message rxTs =>
      rw [step, receiveOther_ignored h hpossible]
      exact h
  | slew change read => exact inv_slew h hpossible
  | reset => exact inv_reset h

theorem Reachable.inv (h : w.Reachable setting) : w.Inv setting := by
  induction h with
  | init hinit => exact inv_init hinit
  | step _ hpossible ih => exact step_inv ih hpossible

theorem growth_ge (setting : Setting) : 1 ≤ setting.growth := by
  rw [Setting.growth, le_div_iff₀ setting.minScale_pos, one_mul]
  exact setting.minScale_le.trans setting.maxScale_ge

/-- The timestamps of a request and of the response to it make an exchange. -/
theorem isExchange_basic (h : w.Inv setting) {env : Env} {response : ServerResponse}
    {rxTs : Stamp} (hpossible : w.Possible setting (.receive env response rxTs))
    (hsynced : response.Synced) (hcurrent : w.IsCurrent setting response.request)
    (htransmit : |time setting.eraSplit response.message.transmitTs - response.departure| ≤
      response.root) :
    (w.assoc.select env response.message rxTs false).IsExchange (getSkew env.stats)
      setting.growth setting.rate response.request.departure response.arrival response.departure
      w.clock.now (w.clock.read response.request.departure) (w.clock.read w.clock.now) := by
  obtain ⟨hmem, hsplit, hskew, hcaptured, hduration, hcorrection⟩ := hpossible
  obtain ⟨responses, -, hhonest⟩ := h.packets.honest response hmem
  have haccurate : w.clock.IsAccurate setting rxTs w.clock.now :=
    hcaptured.isAccurate h.scale_ge le_rfl
  rw [Association.select, if_neg Bool.false_ne_true, hsplit]
  exact
    { request := hhonest.arrival
      response := hhonest.departure
      remoteReceive := hhonest.receive hsynced
      remoteTransmit := htransmit
      localTransmit := hcurrent.localTx.abs_le h.scale_le
      localReceive := haccurate.abs_le h.scale_le
      growth_pos := one_pos.trans_le (growth_ge setting)
      drift := h.drifts _ _
      rate_nonneg := setting.rate_nonneg
      rate_le := hskew
      requestCorrection := (sub_le_self _ hduration).trans hhonest.netCorrection
      responseCorrection := hcorrection }

theorem IsLast.root {response : ServerResponse} {received : ℚ}
    (h : w.IsLast setting response received) :
    response.root = w.assoc.remoteRootDelay / 2 + w.assoc.remoteRootDispersion := by
  rw [ServerResponse.root, h.rootDelay, h.rootDispersion]

/-- The timestamps of the previous request and of the response to it make an exchange when the
next response, in the interleaved mode, has the transmit timestamp. -/
theorem isExchange_previous (h : w.Inv setting) {env : Env} {message : Packet} {rxTs : Stamp}
    (hsplit : env.sourceStats.ntpEraSplit = setting.eraSplit)
    (hskew : setting.rate ≤ 2 * getSkew env.stats) {last : ServerResponse} {received : ℚ}
    (hlast : w.IsLast setting last received)
    (htransmit : |time setting.eraSplit message.transmitTs - last.departure| ≤ last.root)
    (hprefers : w.assoc.prefersPrevious) :
    (w.assoc.select env message rxTs true).IsExchange (getSkew env.stats) setting.growth
      setting.rate last.request.departure last.arrival last.departure received
      (w.clock.read last.request.departure) (w.clock.read received) := by
  obtain ⟨responses, -, hhonest⟩ := h.packets.honest last hlast.mem
  obtain ⟨haccurate, hcorrection⟩ := hlast.prevLocalTx hprefers.1
  have hreceive := hhonest.receive hlast.synced
  rw [hlast.remoteNtpRx, hlast.root] at hreceive
  rw [hlast.root] at htransmit
  rw [Association.select, if_pos rfl, if_pos hprefers, hsplit]
  exact
    { request := hhonest.arrival
      response := hlast.departure_le
      remoteReceive := hreceive
      remoteTransmit := htransmit
      localTransmit := haccurate.abs_le h.scale_le
      localReceive := hlast.localRx.abs_le h.scale_le
      growth_pos := one_pos.trans_le (growth_ge setting)
      drift := h.drifts _ _
      rate_nonneg := setting.rate_nonneg
      rate_le := hskew
      requestCorrection := (sub_le_self _ hlast.rxDuration).trans hcorrection
      responseCorrection := hlast.netCorrection }

/-- The timestamps of a request and of the response before it make an exchange. -/
theorem isExchange_interleaved (h : w.Inv setting) {env : Env} {response : ServerResponse}
    {rxTs : Stamp} (hpossible : w.Possible setting (.receive env response rxTs))
    (hsynced : response.Synced) (hcurrent : w.IsCurrent setting response.request)
    {last : ServerResponse} {received : ℚ} (hlast : w.IsLast setting last received)
    (htransmit : |time setting.eraSplit response.message.transmitTs - last.departure| ≤ last.root)
    (hprefers : ¬w.assoc.prefersPrevious) :
    (w.assoc.select env response.message rxTs true).IsExchange (getSkew env.stats)
      setting.growth setting.rate response.request.departure response.arrival last.departure
      received (w.clock.read response.request.departure) (w.clock.read received) := by
  obtain ⟨hmem, hsplit, hskew, -⟩ := hpossible
  obtain ⟨responses, -, hhonest⟩ := h.packets.honest response hmem
  have hroot : ∀ {root delay dispersion : ℚ}, root = delay / 2 + dispersion →
      ∀ {delay' dispersion' : ℚ}, delay ≤ delay' → dispersion ≤ dispersion' →
        root ≤ delay' / 2 + dispersion' := by
    intro root delay dispersion hroot delay' dispersion' hdelay hdispersion
    linarith
  rw [Association.select, if_pos rfl, if_neg hprefers, hsplit]
  exact
    { request := hhonest.arrival
      response := hlast.departure_le
      remoteReceive := (hhonest.receive hsynced).trans
        (hroot rfl (le_max_left _ _) (le_max_left _ _))
      remoteTransmit := htransmit.trans (hroot hlast.root (le_max_right _ _) (le_max_right _ _))
      localTransmit := hcurrent.localTx.abs_le h.scale_le
      localReceive := hlast.localRx.abs_le h.scale_le
      growth_pos := one_pos.trans_le (growth_ge setting)
      drift := h.drifts _ _
      rate_nonneg := setting.rate_nonneg
      rate_le := hskew
      requestCorrection := (sub_le_self _ hlast.rxDuration).trans hhonest.netCorrection
      responseCorrection := hlast.netCorrection }

/-- **A measurement is an exchange of messages**: of a request, and the response to it or to an
earlier one. -/
theorem select_isExchange (h : w.Inv setting) {env : Env} {response : ServerResponse}
    {rxTs : Stamp} (hpossible : w.Possible setting (.receive env response rxTs))
    (hrx : w.assoc.validRx = false)
    (hmeasured : w.assoc.IsMeasured (w.assoc.packetTests env.checkAuth response.message)) :
    ∃ request ∈ w.sent, ∃ last ∈ w.responses, ∃ arrival received,
      last.departure ≤ received ∧ received ≤ w.clock.now ∧
      (w.assoc.select env response.message rxTs
        (w.assoc.packetTests env.checkAuth response.message).interleavedPacket).IsExchange
        (getSkew env.stats) setting.growth setting.rate request.departure arrival last.departure
        received (w.clock.read request.departure) (w.clock.read received) := by
  obtain ⟨hsyncedPacket, hvalidTimestamps⟩ := hmeasured
  have hvalid : (w.assoc.packetTests env.checkAuth response.message).validPacket = true := by
    simp only [Tests.syncedPacket, Bool.and_eq_true] at hsyncedPacket
    exact hsyncedPacket.1.1
  have hsynced := synced_of_syncedPacket hsyncedPacket
  have hmem := hpossible.1
  obtain ⟨responses, -, hhonest⟩ := h.packets.honest response hmem
  obtain ⟨hcurrent, ⟨hinterleaved, htransmit⟩ | ⟨hinterleaved, previous, hprevious, hlastRx,
    htransmit⟩⟩ := match_response h hmem hvalid hrx
  · rw [hinterleaved]
    exact ⟨response.request, hcurrent.mem, response, hmem, response.arrival, w.clock.now,
      hhonest.departure, le_rfl,
      isExchange_basic h hpossible hsynced hcurrent (htransmit hsynced)⟩
  · rw [hinterleaved] at hvalidTimestamps ⊢
    obtain ⟨last, received, hlast⟩ := h.last (by simpa using hvalidTimestamps)
    obtain rfl : previous = last :=
      h.packets.response_inj _ hprevious _ hlast.mem (hlastRx.trans hlast.remoteNtpRx.symm)
    have htransmit := htransmit hlast.synced
    by_cases hprefers : w.assoc.prefersPrevious
    · obtain ⟨responses', -, hhonest'⟩ := h.packets.honest previous hprevious
      exact ⟨previous.request, hhonest'.request_mem, previous, hprevious, previous.arrival,
        received, hlast.departure_le, hlast.localRx.le_now,
        isExchange_previous h hpossible.2.1 hpossible.2.2.1 hlast htransmit hprefers⟩
    · exact ⟨response.request, hcurrent.mem, previous, hprevious, response.arrival, received,
        hlast.departure_le, hlast.localRx.le_now,
        isExchange_interleaved h hpossible hsynced hcurrent hlast htransmit hprefers⟩

/-- **The error of a measurement is at most its root distance**, whatever happens to the packets.
It is the mean error of the clock at the times when a request left and a response was received,
and the local timestamps are as good as they are estimated, after all corrections of the clock. -/
theorem run_sample_error (h : w.Reachable setting) {action : Action}
    (hpossible : w.Possible setting action) {m : Measured} (hm : w.measured action = some m) :
    ∃ request ∈ w.sent, ∃ response ∈ w.responses, ∃ received,
      response.departure ≤ received ∧ received ≤ w.clock.now ∧
      |-(m.sample.offset - w.assoc.offsetCorrection) -
          ((w.clock.read request.departure - request.departure) +
            (w.clock.read received - received)) / 2| ≤
        m.sample.rootDelay / 2 + m.sample.rootDispersion +
          (setting.growth * (1 + setting.rate) - 1) * m.sample.peerDispersion := by
  have hinv := h.inv
  cases action with
  | receive env response rxTs =>
      rw [measured] at hm
      by_cases hvalid : (w.assoc.packetTests env.checkAuth response.message).validPacket = true
      swap
      · rw [processResponse_rejected hinv.mode (.inl (by simpa using hvalid))] at hm
        cases hm
      by_cases hrx : w.assoc.validRx = true
      · rw [processResponse_rejected hinv.mode (.inr hrx)] at hm
        cases hm
      rw [Bool.not_eq_true] at hrx
      rw [processResponse_accepted hinv.mode hvalid hrx, Option.ite_none_right_eq_some] at hm
      obtain ⟨hgood, hm⟩ := hm
      obtain rfl := Option.some.inj hm
      rw [Bool.and_eq_true, decide_eq_true_eq] at hgood
      obtain ⟨request, hrequest, last, hlast, arrival, received, hdeparture, hnow, hexchange⟩ :=
        select_isExchange hinv hpossible hrx hgood.1
      exact ⟨request, hrequest, last, hlast, received, hdeparture, hnow,
        Selected.applyNetCorrection_error_le hexchange (growth_ge setting) _ _⟩
  | receiveOther env message rxTs =>
      rw [measured, receiveOther_ignored hinv hpossible] at hm
      cases hm
  | wait duration => cases hm
  | transmit interleaved receiveTs transmitTs txTs presendDone localPoll => cases hm
  | processTx request txTs => cases hm
  | respond response => cases hm
  | slew change read => cases hm
  | reset => cases hm

/-- A clock which is half a second fast. -/
def sampleSetting : Setting := ⟨0, 0, 1, 1, le_rfl, one_pos, le_rfl, le_rfl⟩

def sampleStart : World where
  clock := ⟨1000, fun t => t + 1 / 2, 1⟩
  assoc :=
    { mode := .client
      interleaved := false
      validRx := false
      validTimestamps := false
      localPoll := 6
      remotePoll := 0
      prevLocalPoll := 0
      presendDone := 0
      maxDelay := 3
      maxDelayRatio := 0
      maxDelayDevRatio := 10
      offsetCorrection := 0
      remoteRootDelay := 0
      remoteRootDispersion := 0
      remoteNtpRx := 0
      remoteNtpTx := 0
      localNtpRx := 0
      localNtpTx := 0
      localRx := .zero
      localTx := .zero
      prevLocalTx := .zero
      updatedInitTimestamps := false
      initRemoteNtpTx := 0
      initLocalRx := .zero }
  sent := []
  responses := []

/-- The response arrives a quarter of a second after the request left. -/
def sampleResponse : ServerResponse where
  request := ⟨0, 0, 2, 1000⟩
  arrival := 1000 + 1 / 8
  departure := 1000 + 1 / 8
  message :=
    { leap := .normal
      mode := .server
      stratum := 1
      poll := 6
      rootDelay := 0
      rootDispersion := 1 / 1000
      referenceId := 0
      originateTs := 2
      receiveTs := 0x83aa826820000000
      transmitTs := 0x83aa826820000000
      precision := -20
      netCorrection := none }

def sampleEnv : Env where
  sourceStats := Local.sampleEnv
  sysPrecision := 1 / 10 ^ 6
  maxClockError := 1 / 10 ^ 6
  stats := SourceStats.clearedStats.resetInstance
  delayQuant := none
  checkAuth := true
  checkSyncLoop := true

/-- A request is sent, and the response is on its way. -/
def sampleWorld : World :=
  (((sampleStart.step (.transmit false 1 2 (1000 + 1 / 2, 0) 0 6)).step
    (.wait (1 / 4))).step (.respond sampleResponse))

def sampleAction : Action := .receive sampleEnv sampleResponse ⟨1000 + 3 / 4, 0, 0, 0⟩

theorem time_sampleResponse : time 0 0x83aa826820000000 = 1000 + 1 / 8 := by decide +kernel

theorem reachable_sampleWorld : sampleWorld.Reachable sampleSetting := by
  have hstart : sampleStart.Reachable sampleSetting :=
    .init ⟨fun s t => by simp [sampleStart, sampleSetting], rfl, rfl, rfl, rfl, rfl, rfl, rfl⟩
  refine .step (.step (.step hstart ?_) ?_) ?_
  · refine ⟨⟨by decide, fun r hr => ?_⟩, ⟨by decide, fun r hr => ?_⟩, by decide, ?_, ?_⟩
    · cases hr
    · cases hr
    · norm_num
    · norm_num [sampleStart]
  · show (0 : ℚ) ≤ 1 / 4
    norm_num
  · exact
      { request_mem := List.mem_cons_self ..
        arrival := by norm_num [sampleResponse]
        departure := by norm_num [sampleResponse, step, sampleStart]
        receiveTs_fresh := fun r hr => by cases hr
        receive := fun _ => by
          rw [show sampleSetting.eraSplit = 0 from rfl,
            show sampleResponse.message.receiveTs = 0x83aa826820000000 from rfl,
            time_sampleResponse]
          norm_num [sampleResponse, ServerResponse.root]
        transmit := .inl ⟨rfl, fun _ => by
          rw [show sampleSetting.eraSplit = 0 from rfl,
            show sampleResponse.message.transmitTs = 0x83aa826820000000 from rfl,
            time_sampleResponse]
          norm_num [sampleResponse, ServerResponse.root]⟩
        netCorrection := by norm_num [sampleResponse] }

theorem run_sample_error_sample :
    ∃ m, sampleWorld.measured sampleAction = some m ∧
      ∃ request ∈ sampleWorld.sent, ∃ response ∈ sampleWorld.responses, ∃ received,
        response.departure ≤ received ∧ received ≤ sampleWorld.clock.now ∧
        |-(m.sample.offset - sampleWorld.assoc.offsetCorrection) -
            ((sampleWorld.clock.read request.departure - request.departure) +
              (sampleWorld.clock.read received - received)) / 2| ≤
          m.sample.rootDelay / 2 + m.sample.rootDispersion +
            (sampleSetting.growth * (1 + sampleSetting.rate) - 1) * m.sample.peerDispersion := by
  have hsome : (sampleWorld.measured sampleAction).isSome = true := by decide +kernel
  obtain ⟨m, hm⟩ := Option.isSome_iff_exists.mp hsome
  have hskew : (0 : ℚ) ≤ 2 * getSkew SourceStats.clearedStats.resetInstance := by decide +kernel
  have hpossible : sampleWorld.Possible sampleSetting sampleAction := by
    refine ⟨List.mem_cons_self .., rfl, hskew, ⟨by norm_num, ?_⟩, le_rfl, ?_⟩
    · norm_num [sampleWorld, step, sampleStart]
    · norm_num [sampleWorld, step, sampleStart, sampleResponse]
  exact ⟨m, hm, run_sample_error reachable_sampleWorld hpossible hm⟩

end World

end Chrony.NtpCore.Measurement
