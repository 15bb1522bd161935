import Chrony.ClientLog.RateLimit

/-!
# The Bound on the Rate of Responses

The record of a client is followed through the accesses of all clients. Accesses of other
clients can move the record when the table is expanded, or evict it. As long as it is not
evicted, only the accesses of the client change its token buckets.

## Main results

* `run_rate_limit`: the bound on the responses which are paid by tokens.
-/

namespace Chrony.ClientLog

open Lib TokenBucket

variable {seed : BitVec 32} {log log' : Log} {ip client : IPAddr} {record : Record}

/-! ### Records in the table -/

/-- The record is in the table. -/
def Log.Has (log : Log) (record : Record) : Prop :=
  ∃ i < log.slots * slotSize, log.records i = record

theorem Log.Invariant.eq_of_ipAddr (hinv : log.Invariant seed) {i j : ℕ}
    (hi : i < log.slots * slotSize) (hj : j < log.slots * slotSize)
    (heq : (log.records i).ipAddr = (log.records j).ipAddr)
    (hne : (log.records j).ipAddr ≠ .unspec) : i = j :=
  hinv.table.unique i hi j hj _ (Record.key_eq_some_iff.mpr ⟨heq, hne⟩)
    (Record.key_eq_some_iff.mpr ⟨rfl, hne⟩)

/-- Records of other addresses are kept when a record is set. -/
theorem Log.Has.setRecord (h : log.Has record) {i : ℕ} (hne : log.records i ≠ record)
    (record' : Record) : (log.setRecord i record').Has record := by
  obtain ⟨j, hj, rfl⟩ := h
  refine ⟨j, hj, records_setRecord_of_ne _ ?_ _⟩
  rintro rfl
  exact hne rfl

theorem has_setRecord_self {i : ℕ} (hi : i < log.slots * slotSize) (record : Record) :
    (log.setRecord i record).Has record :=
  ⟨i, hi, records_setRecord_self ..⟩

theorem Log.Has.of_setRecord {i : ℕ} {record' : Record}
    (h : (log.setRecord i record').Has record) : record = record' ∨ log.Has record := by
  obtain ⟨j, hj, hrecord⟩ := h
  by_cases heq : j = i
  · rw [heq, records_setRecord_self] at hrecord
    exact .inl hrecord.symm
  · rw [records_setRecord_of_ne _ heq] at hrecord
    exact .inr ⟨j, hj, hrecord⟩

/-- **A record is not changed by an access of another client**, if it is not evicted. -/
theorem Accessed.has {i : ℕ} (h : Accessed seed log client log' i) (hrecord : log.Has record)
    (hip : record.ipAddr = ip) (hused : ip ≠ .unspec) (hne : ip ≠ client)
    (hpresent : ¬log'.Absent ip) : log'.Has record := by
  cases h with
  | found => exact hrecord
  | added hgrown _ hc hempty =>
      refine Log.Has.setRecord ((hgrown.kept record (hip ▸ hused)).mpr hrecord) ?_ _
      rintro rfl
      exact hused (hip.symm.trans hempty)
  | @evicted log₁ c hgrown _ _ _ hc _ =>
      have hrecord₁ := (hgrown.kept record (hip ▸ hused)).mpr hrecord
      have hdrops : ({ log₁ with totalRecordDrops := log₁.totalRecordDrops + 1 } : Log).Has
          record := hrecord₁
      refine hdrops.setRecord ?_ _
      intro heq
      refine hpresent fun k hk hkip => ?_
      by_cases hki : k = log₁.first seed client + c
      · rw [hki, records_setRecord_self] at hkip
        exact hne hkip.symm
      · rw [records_setRecord_of_ne _ hki] at hkip
        have hcip : (log₁.records (log₁.first seed client + c)).ipAddr = ip :=
          (congrArg Record.ipAddr heq).trans hip
        exact hki (hgrown.invariant.eq_of_ipAddr hk (first_lt hgrown.invariant.slots_pos hc)
          (hkip.trans hcip.symm) (hcip ▸ hused))

/-- The records after an access are those before it, and a new one. -/
theorem Accessed.of_has {i : ℕ} (h : Accessed seed log client log' i)
    (hused : record.ipAddr ≠ .unspec)
    (hrecord : log'.Has record) : record = newRecord log'.limit client ∨ log.Has record := by
  cases h with
  | found => exact .inr hrecord
  | added hgrown =>
      exact hrecord.of_setRecord.imp id (hgrown.kept record hused).mp
  | evicted hgrown =>
      exact hrecord.of_setRecord.imp id (hgrown.kept record hused).mp

theorem Accessed.same {i : ℕ} (h : Accessed seed log client log' i) :
    log'.limit = log.limit ∧ log'.tsOffset = log.tsOffset := by
  cases h with
  | found => exact ⟨rfl, rfl⟩
  | added hgrown =>
      rw [Log.setRecord, hgrown.same]
      exact ⟨rfl, rfl⟩
  | evicted hgrown =>
      rw [Log.setRecord, hgrown.same]
      exact ⟨rfl, rfl⟩

/-! ### Accesses of a client -/

/-- The record after decisions, which are made only if the rate is limited. -/
def Record.limitedBy (record : Record) (limit : Limit) (service : Service)
    (limited : List (Bool × Bool)) : Record :=
  if limit.tokensPerHit = 0 then record else record.limitRates limit service limited

/-- The record after an access and the decisions. -/
def Record.accessed (record : Record) (limit : Limit) (service : Service) (nowTs : BitVec 32)
    (limited : List (Bool × Bool)) : Record :=
  (updateRecord limit service nowTs record).limitedBy limit service limited

theorem accessed_ipAddr (record : Record) (limit : Limit) (service : Service) (nowTs : BitVec 32)
    (limited : List (Bool × Bool)) :
    (record.accessed limit service nowTs limited).ipAddr = record.ipAddr := by
  rw [Record.accessed, Record.limitedBy]
  split
  · exact updateRecord_ipAddr ..
  · exact (limitRates_frame ..).1.trans (updateRecord_ipAddr ..)

theorem accessed_limited {limit : Service → Limit} (h : record.Limited limit) (service : Service)
    (nowTs : BitVec 32) (limited : List (Bool × Bool)) :
    (record.accessed (limit service) service nowTs limited).Limited limit := by
  have hupdate := updateRecord_limited h service nowTs
  rw [Record.accessed, Record.limitedBy]
  split
  · exact hupdate
  · exact fun service' => ((limitRates_frame ..).2.2 service').trans (hupdate service')

/-- The statistics are replaced. -/
def Log.setDrops (log : Log) (totalDrops : Service → BitVec 64) : Log :=
  { log with totalDrops }

theorem setRecord_setDrops_setRecord (log : Log) (i : ℕ) (record record' : Record)
    (totalDrops : Service → BitVec 64) : ((log.setRecord i record).setDrops totalDrops).setRecord i
      record' = (log.setDrops totalDrops).setRecord i record' := by
  simp only [Log.setRecord, Log.setDrops, Function.update_idem]

/-- The decisions change only one record. -/
theorem limitServiceRates_eq (log : Log) (service : Service) (i : ℕ)
    (limited : List (Bool × Bool)) : ∃ totalDrops, limitServiceRates log service i limited =
      (log.setDrops totalDrops).setRecord i
        ((log.records i).limitedBy (log.limit service) service limited) := by
  induction limited generalizing log with
  | nil =>
      refine ⟨log.totalDrops, ?_⟩
      rw [Record.limitedBy, Record.limitRates, List.foldl_nil, ite_self, Log.setRecord,
        Log.setDrops, Function.update_eq_self]
      rfl
  | cons random limited ih =>
      obtain ⟨totalDrops, h⟩ := ih (limitServiceRate log service i random.1 random.2).1
      refine ⟨totalDrops, h.trans ?_⟩
      rw [limitServiceRate, Record.limitedBy, Record.limitedBy]
      split
      next hzero => rfl
      next hne =>
          dsimp only
          rw [records_setRecord_self]
          refine (setRecord_setDrops_setRecord _ i _ _ totalDrops).trans ?_
          exact congrArg (Log.setRecord _ i) (if_neg hne)

/-- **What an access of a client does to the table.** -/
theorem step_access (hlog : log.Sound seed) (hactive : log.active = true)
    (hip : client.isReal = true) (service : Service) (now : Timespec)
    (limited : List (Bool × Bool)) : ∃ totalHits log₁ i totalDrops,
      Accessed seed { log with totalHits } client log₁ i ∧ Returned seed client log₁ i ∧
      logServiceAccess seed log service client now = .ok (log₁.setRecord i (updateRecord
        (log.limit service) service (getTsFromTimespec log.tsOffset now) (log₁.records i)),
        some i) ∧
      log.step seed (.access service client now limited) =
        .ok ((log₁.setDrops totalDrops).setRecord i ((log₁.records i).accessed (log.limit service)
          service (getTsFromTimespec log.tsOffset now) limited)) := by
  have hlog' := hlog.counters
    (Function.update log.totalHits service (log.totalHits service + 1)) log.totalDrops
  rcases getRecord_ok hlog' client with ⟨log₁, i, hget, haccess, hreturned, -⟩ | ⟨-, hnot⟩
  · obtain ⟨hlimit, hoffset⟩ := haccess.same
    have hservice : logServiceAccess seed log service client now = .ok (log₁.setRecord i
        (updateRecord (log.limit service) service (getTsFromTimespec log.tsOffset now)
          (log₁.records i)), some i) := by
      rw [logServiceAccess, hget, show log.limit = log₁.limit from hlimit.symm,
        show log.tsOffset = log₁.tsOffset from hoffset.symm]
      rfl
    obtain ⟨totalDrops, hdecisions⟩ := limitServiceRates_eq (log₁.setRecord i
      (updateRecord (log.limit service) service (getTsFromTimespec log.tsOffset now)
        (log₁.records i))) service i limited
    refine ⟨_, log₁, i, totalDrops, haccess, hreturned, hservice, ?_⟩
    rw [Log.step, hservice]
    refine congrArg Except.ok (hdecisions.trans ?_)
    have hlimit' : (log₁.setRecord i (updateRecord (log.limit service) service
        (getTsFromTimespec log.tsOffset now) (log₁.records i))).limit = log.limit := hlimit
    rw [setRecord_setDrops_setRecord, records_setRecord_self, hlimit']
    rfl
  · rw [hip] at hnot
    exact absurd (hnot.resolve_right Bool.noConfusion) (by rw [hactive]; decide)

/-- Other addresses have no records. -/
theorem step_access_none (hlog : log.Sound seed) (hip : ¬client.isReal = true) (service : Service)
    (now : Timespec) (limited : List (Bool × Bool)) : ∃ totalHits,
      logServiceAccess seed log service client now = .ok ({ log with totalHits }, none) ∧
      log.step seed (.access service client now limited) = .ok { log with totalHits } := by
  have hlog' := hlog.counters
    (Function.update log.totalHits service (log.totalHits service + 1)) log.totalDrops
  rcases getRecord_ok hlog' client with ⟨log₁, i, -, -, hreturned, -⟩ | ⟨hget, -⟩
  · exact absurd hreturned.real hip
  · refine ⟨Function.update log.totalHits service (log.totalHits service + 1), ?_, ?_⟩
    · rw [logServiceAccess, hget]
      rfl
    · rw [Log.step, logServiceAccess, hget]
      rfl

theorem resetRecord_cases (log : Log) (i : ℕ) : resetRecord log i = log ∨
    (i < log.slots * slotSize ∧ resetRecord log i = log.setRecord i
      { log.records i with hits := fun _ => 0, drops := fun _ => 0 }) := by
  rw [resetRecord]
  split
  · exact .inl rfl
  next h =>
      refine .inr ⟨?_, rfl⟩
      by_contra hge
      exact h (.inr (.inl (not_lt.mp hge)))

/-! ### Steps -/

/-- What holds between the calls: also the tokens of all records are within their limits. -/
structure Log.Tracked (seed : BitVec 32) (log : Log) : Prop where
  sound : log.Sound seed
  active : log.active = true
  limited : ∀ record, log.Has record → record.ipAddr ≠ .unspec → record.Limited log.limit

/-- What no call changes. -/
def Log.SameConfig (log log' : Log) : Prop :=
  log'.limit = log.limit ∧ log'.tsOffset = log.tsOffset ∧ log'.active = log.active

/-- The access of a client keeps the limits of all records. -/
theorem Accessed.limited (hlog : log.Tracked seed) {totalHits : Service → BitVec 64}
    {log₁ : Log} {i : ℕ} (h : Accessed seed { log with totalHits } client log₁ i)
    (hused : record.ipAddr ≠ .unspec) (hrecord : log₁.Has record) : record.Limited log.limit := by
  have hlimit : log₁.limit = log.limit := h.same.1
  rcases h.of_has hused hrecord with rfl | hrecord
  · rw [hlimit]
    exact newRecord_limited _ _
  · exact hlog.limited record hrecord hused

theorem step_tracked (hlog : log.Tracked seed) (call : LogCall) :
    ∃ log', log.step seed call = .ok log' ∧ log'.Tracked seed ∧ log.SameConfig log' := by
  obtain ⟨log', hstep, hsound⟩ := step_sound hlog.sound call
  refine ⟨log', hstep, ?_⟩
  suffices h : (∀ record, log'.Has record → record.ipAddr ≠ .unspec → record.Limited log.limit) ∧
      log.SameConfig log' by
    obtain ⟨hlimited, hsame⟩ := h
    refine ⟨⟨hsound, hsame.2.2.trans hlog.active, ?_⟩, hsame⟩
    rw [hsame.1]
    exact hlimited
  cases call with
  | access service client now limited =>
      by_cases hip : client.isReal = true
      · obtain ⟨totalHits, log₁, i, totalDrops, haccess, hreturned, -, hstep'⟩ :=
          step_access hlog.sound hlog.active hip service now limited
        rw [hstep'] at hstep
        obtain rfl := Except.ok.inj hstep
        have hi : log₁.Has (log₁.records i) := ⟨i, hreturned.index, rfl⟩
        have hne : (log₁.records i).ipAddr ≠ .unspec := by
          rw [hreturned.ipAddr]
          exact isReal_ne_unspec hip
        refine ⟨fun record hrecord hused => ?_, haccess.same.1, haccess.same.2, haccess.active.1⟩
        rcases hrecord.of_setRecord with rfl | hrecord
        · exact accessed_limited (haccess.limited hlog hne hi) service _ limited
        · exact haccess.limited hlog hused hrecord
      · obtain ⟨totalHits, -, hstep'⟩ := step_access_none hlog.sound hip service now limited
        rw [hstep'] at hstep
        obtain rfl := Except.ok.inj hstep
        exact ⟨hlog.limited, rfl, rfl, rfl⟩
  | getClientIndex client =>
      rw [Log.step] at hstep
      rcases getRecord_ok hlog.sound client with ⟨log₁, i, hget, haccess, -⟩ | ⟨hget, -⟩
      · rw [hget] at hstep
        obtain rfl := Except.ok.inj hstep
        refine ⟨fun record hrecord hused => ?_, haccess.same.1, haccess.same.2, haccess.active.1⟩
        exact haccess.limited hlog hused hrecord
      · rw [hget] at hstep
        obtain rfl := Except.ok.inj hstep
        exact ⟨hlog.limited, rfl, rfl, rfl⟩
  | reset index =>
      obtain rfl := Except.ok.inj hstep
      rcases resetRecord_cases log index with heq | ⟨hi, heq⟩
      · rw [heq]
        exact ⟨hlog.limited, rfl, rfl, rfl⟩
      · rw [heq]
        refine ⟨fun record hrecord hused => ?_, rfl, rfl, rfl⟩
        rcases hrecord.of_setRecord with rfl | hrecord
        · exact hlog.limited (log.records index) ⟨index, hi, rfl⟩ hused
        · exact hlog.limited record hrecord hused

/-! ### Windows -/

/-- The timestamp of an access of the service by the client. -/
def LogCall.hitTs (tsOffset : BitVec 32) (service : Service) (ip : IPAddr) : LogCall → Option ℕ
  | .access service' client now _ =>
      if service' = service ∧ client = ip then some (getTsFromTimespec tsOffset now).toNat
      else none
  | .getClientIndex _ => none
  | .reset _ => none

/-- The number of responses of the service to the client which are paid by tokens in a
call. -/
def Log.paidPasses (seed : BitVec 32) (service : Service) (ip : IPAddr) (log : Log) :
    LogCall → ℕ
  | .access service' client now limited =>
      if service' = service ∧ client = ip then
        match logServiceAccess seed log service client now with
        | .ok (log', some i) => (log'.records i).paidPasses (log'.limit service) service limited
        | _ => 0
      else 0
  | .getClientIndex _ => 0
  | .reset _ => 0

/-- The number of paid responses in several calls. -/
def Log.totalPaid (seed : BitVec 32) (service : Service) (ip : IPAddr) : Log → List LogCall → ℕ
  | _, [] => 0
  | log, call :: calls =>
      log.paidPasses seed service ip call +
        match log.step seed call with
        | .ok log' => totalPaid seed service ip log' calls
        | .error _ => 0

/-- **The record of the client is not evicted**: it is in the table after each of the calls. -/
def Log.Keeps (seed : BitVec 32) (ip : IPAddr) : Log → List LogCall → Prop
  | _, [] => True
  | log, call :: calls =>
      ∃ log', log.step seed call = .ok log' ∧ ¬log'.Absent ip ∧ log'.Keeps seed ip calls

/-- Whether a record is evicted is found by executing the calls. -/
instance Log.decidableKeeps (seed : BitVec 32) (ip : IPAddr) :
    ∀ (log : Log) (calls : List LogCall), Decidable (log.Keeps seed ip calls)
  | _, [] => .isTrue trivial
  | log, call :: calls =>
      match h : log.step seed call with
      | .ok log' =>
          have := Log.decidableKeeps seed ip log' calls
          have : Decidable (log'.Absent ip) := Nat.decidableBallLT ..
          decidable_of_iff (¬log'.Absent ip ∧ log'.Keeps seed ip calls) (by simp [Log.Keeps, h])
      | .error _ => .isFalse (by simp [Log.Keeps, h])

/-- An access of a client which has a record finds it. -/
theorem Accessed.record_eq (hinv : log.Invariant seed) {i : ℕ}
    (h : Accessed seed log ip log' i) (hrecord : log.Has record) (hip : record.ipAddr = ip)
    (hused : ip ≠ .unspec) : log' = log ∧ log.records i = record := by
  obtain ⟨j, hj, rfl⟩ := hrecord
  cases h with
  | found hi hfound =>
      refine ⟨rfl, congrArg log.records (hinv.eq_of_ipAddr hi hj (hfound.trans hip.symm) ?_)⟩
      rw [hip]
      exact hused
  | added _ habsent => exact absurd hip (habsent j hj)
  | evicted _ habsent => exact absurd hip (habsent j hj)

/-- The bucket of the service which was accessed. -/
theorem accessed_run (limit : Limit) (hcost : limit.tokensPerHit ≠ 0) (service : Service)
    (nowTs : BitVec 32) (record : Record) (limited : List (Bool × Bool)) :
    Run limit.credit limit.tokensPerHit.toNat
      ((updateRecord limit service nowTs record).bucket service)
      ((updateRecord limit service nowTs record).paidPasses limit service limited)
      ((record.accessed limit service nowTs limited).bucket service) := by
  rw [Record.accessed, Record.limitedBy, if_neg hcost]
  exact limitRates_run ..

/-- The bucket of another service. -/
theorem accessed_bucket_of_ne (limit : Limit) {service service' : Service}
    (hne : service' ≠ service) (nowTs : BitVec 32) (record : Record)
    (limited : List (Bool × Bool)) :
    (record.accessed limit service nowTs limited).bucket service' = record.bucket service' := by
  rw [Record.accessed, Record.limitedBy]
  split
  · exact bucket_of_ne record limit hne nowTs []
  · exact bucket_of_ne record limit hne nowTs limited

/-- **The first access of a window**, which may add the record. -/
theorem step_first (hlog : log.Tracked seed) (hip : ip.isReal = true) {service : Service}
    (hcost : (log.limit service).tokensPerHit ≠ 0) (now : Timespec)
    (limited : List (Bool × Bool))
    (hstep : log.step seed (.access service ip now limited) = .ok log') :
    ∃ b record', b.last = (getTsFromTimespec log.tsOffset now).toNat ∧
      b.tokens ≤ (log.limit service).maxTokens.toNat ∧ log'.Has record' ∧ record'.ipAddr = ip ∧
      Run (log.limit service).credit (log.limit service).tokensPerHit.toNat b
        (log.paidPasses seed service ip (.access service ip now limited))
        (record'.bucket service) ∧
      (record'.bucket service).last = (getTsFromTimespec log.tsOffset now).toNat := by
  obtain ⟨totalHits, log₁, i, totalDrops, haccess, hreturned, hservice, hstep'⟩ :=
    step_access hlog.sound hlog.active hip service now limited
  rw [hstep'] at hstep
  obtain rfl := Except.ok.inj hstep
  have hi : log₁.Has (log₁.records i) := ⟨i, hreturned.index, rfl⟩
  have hne : (log₁.records i).ipAddr ≠ .unspec := by
    rw [hreturned.ipAddr]
    exact isReal_ne_unspec hip
  have hlimited := haccess.limited hlog hne hi
  have hlast : ((updateRecord (log.limit service) service (getTsFromTimespec log.tsOffset now)
      (log₁.records i)).bucket service).last = (getTsFromTimespec log.tsOffset now).toNat := by
    rw [Record.bucket, updateRecord_lastHit, Function.update_self]
  refine ⟨(updateRecord (log.limit service) service (getTsFromTimespec log.tsOffset now)
      (log₁.records i)).bucket service, _, hlast, updateRecord_limited hlimited service _ service,
    has_setRecord_self hreturned.index _, (accessed_ipAddr ..).trans hreturned.ipAddr, ?_, ?_⟩
  · rw [Log.paidPasses, if_pos ⟨rfl, rfl⟩, hservice]
    dsimp only
    rw [records_setRecord_self, show (log₁.setRecord i _).limit = log.limit from haccess.same.1]
    exact accessed_run _ hcost service _ _ limited
  · rw [Record.accessed, Record.limitedBy, if_neg hcost, Record.bucket, (limitRates_frame ..).2.1]
    exact hlast

/-- An access of another client does not change the record. -/
theorem step_other (hlog : log.Tracked seed) (hrecord : log.Has record) (hip : record.ipAddr = ip)
    (hused : ip ≠ .unspec) (hne : ip ≠ client) (service : Service) (now : Timespec)
    (limited : List (Bool × Bool)) (hpresent : ¬log'.Absent ip)
    (hstep : log.step seed (.access service client now limited) = .ok log') :
    log'.Has record := by
  by_cases hreal : client.isReal = true
  · obtain ⟨totalHits, log₁, i, totalDrops, haccess, hreturned, -, hstep'⟩ :=
      step_access hlog.sound hlog.active hreal service now limited
    rw [hstep'] at hstep
    obtain rfl := Except.ok.inj hstep
    have hpresent₁ : ¬log₁.Absent ip := by
      intro habsent
      refine hpresent fun j hj => ?_
      by_cases heq : j = i
      · rw [heq, records_setRecord_self, accessed_ipAddr, hreturned.ipAddr]
        exact hne.symm
      · rw [records_setRecord_of_ne _ heq]
        exact habsent j hj
    have hrecord₁ : log₁.Has record := haccess.has hrecord hip hused hne hpresent₁
    have hdrops : (log₁.setDrops totalDrops).Has record := hrecord₁
    refine hdrops.setRecord (fun heq => hne ?_) _
    rw [← hip, ← heq]
    exact hreturned.ipAddr
  · obtain ⟨totalHits, -, hstep'⟩ := step_access_none hlog.sound hreal service now limited
    rw [hstep'] at hstep
    obtain rfl := Except.ok.inj hstep
    exact hrecord

/-- A reset changes only the numbers of hits and drops. -/
theorem resetRecord_has (hrecord : log.Has record) (index : ℕ) :
    ∃ record', (resetRecord log index).Has record' ∧ record'.ipAddr = record.ipAddr ∧
      ∀ service, record'.bucket service = record.bucket service := by
  rcases resetRecord_cases log index with heq | ⟨hindex, heq⟩
  · rw [heq]
    exact ⟨record, hrecord, rfl, fun _ => rfl⟩
  · rw [heq]
    by_cases hsame : log.records index = record
    · refine ⟨_, has_setRecord_self hindex _, ?_, fun service => ?_⟩
      · rw [hsame]
      · rw [hsame]
        rfl
    · exact ⟨record, hrecord.setRecord hsame _, rfl, fun _ => rfl⟩

/-- **One call of a window.** The record is followed to its next state, and its bucket runs
from the last hit to the hit of the call. -/
theorem step_follow (hlog : log.Tracked seed) (hrecord : log.Has record)
    (hip : record.ipAddr = ip) (hused : ip ≠ .unspec) {service : Service}
    (hcost : (log.limit service).tokensPerHit ≠ 0) {call : LogCall}
    (hstep : log.step seed call = .ok log') (hpresent : ¬log'.Absent ip)
    (hts : ∀ t ∈ call.hitTs log.tsOffset service ip, (record.bucket service).last ≤ t) :
    ∃ record', log'.Has record' ∧ record'.ipAddr = ip ∧
      Run (log.limit service).credit (log.limit service).tokensPerHit.toNat
        (record.bucket service) (log.paidPasses seed service ip call) (record'.bucket service) ∧
      (record'.bucket service).last =
        (call.hitTs log.tsOffset service ip).getD (record.bucket service).last := by
  cases call with
  | access service' client now limited =>
      rw [LogCall.hitTs] at hts ⊢
      rw [Log.paidPasses]
      by_cases hclient : ip = client
      · subst hclient
        have hreal : ip.isReal = true := by
          obtain ⟨i, hi, rfl⟩ := hrecord
          exact (hlog.sound.invariant hlog.active).real i hi ip
            (Record.key_eq_some_iff.mpr ⟨hip, hused⟩)
        obtain ⟨totalHits, log₁, i, totalDrops, haccess, hreturned, hservice, hstep'⟩ :=
          step_access hlog.sound hlog.active hreal service' now limited
        obtain ⟨hlog₁, hi⟩ := haccess.record_eq
          ((hlog.sound.counters totalHits log.totalDrops).invariant hlog.active) hrecord hip hused
        rw [hstep'] at hstep
        obtain rfl := Except.ok.inj hstep
        have hi₁ : log₁.records i = record := by
          rw [hlog₁]
          exact hi
        refine ⟨_, has_setRecord_self hreturned.index _, ?_, ?_⟩
        · rw [accessed_ipAddr]
          exact hreturned.ipAddr
        · rw [hi₁]
          by_cases heq : service' = service
          · subst heq
            rw [if_pos ⟨rfl, rfl⟩] at hts ⊢
            have hle := hts _ rfl
            rw [if_pos ⟨rfl, rfl⟩, hservice]
            dsimp only
            rw [records_setRecord_self, hi₁,
              show (log₁.setRecord i _).limit = log.limit from haccess.same.1]
            have hrun := (updateRecord_run (log.limit service') _ service' hle).trans
              (accessed_run (log.limit service') hcost service'
                (getTsFromTimespec log.tsOffset now) record limited)
            rw [Nat.zero_add] at hrun
            refine ⟨hrun, ?_⟩
            rw [Record.accessed, Record.limitedBy, if_neg hcost, Record.bucket,
              (limitRates_frame ..).2.1, updateRecord_lastHit, Function.update_self]
            rfl
          · have hnot : ¬(service' = service ∧ ip = ip) := fun h => heq h.1
            rw [if_neg hnot, if_neg hnot, accessed_bucket_of_ne _ (Ne.symm heq)]
            exact ⟨.refl _, rfl⟩
      · have hnot : ¬(service' = service ∧ client = ip) := fun h => hclient h.2.symm
        rw [if_neg hnot, if_neg hnot]
        exact ⟨record, step_other hlog hrecord hip hused hclient service' now limited hpresent
          hstep, hip, .refl _, rfl⟩
  | getClientIndex client =>
      rw [Log.step] at hstep
      rcases getRecord_ok hlog.sound client with ⟨log₁, i, hget, haccess, -⟩ | ⟨hget, -⟩
      · rw [hget] at hstep
        obtain rfl := Except.ok.inj hstep
        refine ⟨record, ?_, hip, .refl _, rfl⟩
        by_cases hclient : ip = client
        · subst hclient
          rw [(haccess.record_eq (hlog.sound.invariant hlog.active) hrecord hip hused).1]
          exact hrecord
        · exact haccess.has hrecord hip hused hclient hpresent
      · rw [hget] at hstep
        obtain rfl := Except.ok.inj hstep
        exact ⟨record, hrecord, hip, .refl _, rfl⟩
  | reset index =>
      obtain rfl := Except.ok.inj hstep
      obtain ⟨record', hrecord', hip', hbucket⟩ := resetRecord_has hrecord index
      refine ⟨record', hrecord', hip'.trans hip, ?_, ?_⟩
      · rw [hbucket]
        exact .refl _
      · rw [hbucket]
        rfl

/-- **All calls of a window.** The hits of the client are not earlier than the last one, and
they are in the order of time. -/
theorem calls_follow (hlog : log.Tracked seed) (hrecord : log.Has record)
    (hip : record.ipAddr = ip) (hused : ip ≠ .unspec) {service : Service}
    (hcost : (log.limit service).tokensPerHit ≠ 0) {calls : List LogCall}
    (hkept : log.Keeps seed ip calls)
    (hsorted : ((record.bucket service).last ::
      calls.filterMap (LogCall.hitTs log.tsOffset service ip)).Pairwise (· ≤ ·)) :
    ∃ b, Run (log.limit service).credit (log.limit service).tokensPerHit.toNat
        (record.bucket service) (log.totalPaid seed service ip calls) b ∧
      b.last ∈ (record.bucket service).last ::
        calls.filterMap (LogCall.hitTs log.tsOffset service ip) := by
  induction calls generalizing log record with
  | nil => exact ⟨_, .refl _, List.mem_cons_self⟩
  | cons call calls ih =>
      obtain ⟨log', hstep, hpresent, hkept⟩ := hkept
      obtain ⟨log'', hstep'', hlog', hlimit, hoffset, -⟩ := step_tracked hlog call
      obtain rfl : log' = log'' := Except.ok.inj (hstep.symm.trans hstep'')
      have hts : ∀ t ∈ call.hitTs log.tsOffset service ip, (record.bucket service).last ≤ t := by
        intro t ht
        rw [List.filterMap_cons, ht] at hsorted
        exact List.rel_of_pairwise_cons hsorted List.mem_cons_self
      obtain ⟨record', hrecord', hip', hrun, hlast⟩ :=
        step_follow hlog hrecord hip hused hcost hstep hpresent hts
      rw [← hlimit] at hcost
      have hsorted' : ((record'.bucket service).last ::
          calls.filterMap (LogCall.hitTs log'.tsOffset service ip)).Pairwise (· ≤ ·) := by
        rw [hlast, hoffset]
        rw [List.filterMap_cons] at hsorted
        cases hts : call.hitTs log.tsOffset service ip with
        | none =>
            rw [hts] at hsorted
            exact hsorted
        | some t =>
            rw [hts] at hsorted
            exact hsorted.of_cons
      obtain ⟨b, hrun', hb⟩ := ih hlog' hrecord' hip' hcost hkept hsorted'
      rw [hlimit] at hrun'
      refine ⟨b, ?_, ?_⟩
      · rw [Log.totalPaid, hstep]
        exact hrun.trans hrun'
      · rw [hlast, hoffset] at hb
        rw [List.filterMap_cons]
        cases hts : call.hitTs log.tsOffset service ip with
        | none =>
            rw [hts] at hb
            exact hb
        | some t =>
            rw [hts] at hb
            exact List.mem_cons_of_mem _ hb

/-- **Tokens as responses.** Up to one response is gained by the rounding of timestamps. -/
theorem Limit.Fits.paid_le {limit : Limit} {config : RateLimit} (h : limit.Fits config)
    {n a b : ℕ} (hpaid : n * limit.tokensPerHit.toNat + limit.credit a ≤
      limit.maxTokens.toNat + limit.credit b) : (n : ℚ) ≤
      config.effectiveBurst + ((b : ℚ) - a) / 2 ^ (config.clampedInterval + tsFrac) + 1 := by
  rw [h.maxTokens, Limit.credit, Limit.credit] at hpaid
  rcases h.shift with ⟨hshift, hcost, hnonneg⟩ | ⟨hshift, hcost, heq⟩
  · rw [if_pos hshift, if_pos hshift] at hpaid
    obtain ⟨k, hk⟩ := Int.eq_ofNat_of_zero_le hnonneg
    have hcostPos : 1 ≤ limit.tokensPerHit.toNat :=
      Nat.one_le_iff_ne_zero.mpr fun hzero => h.tokensPerHit (BitVec.eq_of_toNat_eq hzero)
    rw [hk, Int.toNat_natCast] at hcost
    generalize limit.tokenShift.toNat = s at hpaid hcost
    generalize limit.tokensPerHit.toNat = cost at hpaid hcost hcostPos
    -- the tokens are multiplied by the unit of the timestamps shifted by `s`
    have hunit : 2 ^ s ≤ 2 ^ k := by
      rw [← hcost]
      exact Nat.le_mul_of_pos_left _ hcostPos
    have ha : a + 1 ≤ a / 2 ^ s * 2 ^ s + 2 ^ s := by
      rw [← Nat.succ_mul]
      exact Nat.lt_mul_of_div_lt (Nat.lt_succ_self _) (Nat.two_pow_pos s)
    have hb : b / 2 ^ s * 2 ^ s ≤ b := Nat.div_mul_le_self b _
    have hmul := Nat.mul_le_mul_right (2 ^ s) hpaid
    have hnat : n * 2 ^ k + a ≤ config.effectiveBurst * 2 ^ k + b + 2 ^ k := by
      rw [Nat.add_mul, Nat.add_mul, Nat.mul_assoc, hcost, Nat.mul_right_comm, hcost] at hmul
      rw [Nat.mul_comm config.effectiveBurst]
      omega
    have hrat : (n : ℚ) * 2 ^ k + a ≤ config.effectiveBurst * 2 ^ k + b + 2 ^ k := by
      exact_mod_cast hnat
    have hpos : (0 : ℚ) < 2 ^ k := by positivity
    rw [hk, zpow_natCast, ← sub_le_iff_le_add, ← sub_le_iff_le_add', le_div_iff₀ hpos]
    linarith
  · rw [if_neg (not_le.mpr hshift), if_neg (not_le.mpr hshift), hcost] at hpaid
    have hpow : (2 : ℚ) ^ (-limit.tokenShift).toNat =
        (2 ^ (config.clampedInterval + tsFrac))⁻¹ := by
      rw [← zpow_natCast, Int.toNat_of_nonneg (by omega), zpow_neg, heq]
    have hrat : (n : ℚ) + a * 2 ^ (-limit.tokenShift).toNat ≤
        config.effectiveBurst + b * 2 ^ (-limit.tokenShift).toNat := by
      rw [show (1 : BitVec 16).toNat = 1 from rfl, Nat.mul_one, Nat.one_mul] at hpaid
      exact_mod_cast hpaid
    rw [hpow] at hrat
    rw [div_eq_mul_inv, sub_mul]
    linarith

/-- The log after the initialisation with a rate limit. -/
theorem initialise_tracked {noClientLog : Bool} {slots : ℕ}
    {rateLimit : Service → Option RateLimit} {tsOffset : BitVec 32} {service : Service}
    {config : RateLimit} (hconfig : rateLimit service = some config)
    (h : Log.initialise seed noClientLog slots rateLimit tsOffset = .ok log) :
    log.Tracked seed ∧ log.limit = (fun service => RateLimit.toLimit (rateLimit service)) ∧
      log.tsOffset = tsOffset := by
  have hsound := (initialise_sound seed noClientLog slots rateLimit tsOffset).value h
  cases noClientLog with
  | true =>
      -- the rate cannot be limited without the table
      have hleak := le_clamp config.leakRate (show (1 : ℤ) ≤ 4 by decide)
      have hany : (Service.all.any fun service => decide
          (((initialLog true slots rateLimit tsOffset).limit service).leakRate ≠ 0)) = true := by
        refine List.any_eq_true.mpr ⟨service, by cases service <;> decide, ?_⟩
        refine decide_eq_true ?_
        change (RateLimit.toLimit (rateLimit service)).leakRate ≠ 0
        rw [hconfig]
        exact (Int.lt_of_lt_of_le Int.one_pos hleak.1).ne'
      rw [Log.initialise, if_pos rfl, if_pos hany] at h
      cases h
  | false =>
      rw [initialise_eq] at h
      obtain rfl := Except.ok.inj h
      refine ⟨⟨hsound, rfl, fun record hrecord hused => ?_⟩, rfl, rfl⟩
      obtain ⟨i, hi, rfl⟩ := hrecord
      exact absurd rfl hused

/-- What holds in all states of a run with a rate limit. -/
theorem run_tracked {noClientLog : Bool} {slots : ℕ} {rateLimit : Service → Option RateLimit}
    {tsOffset : BitVec 32} {calls : List LogCall} {service : Service} {config : RateLimit}
    (hconfig : rateLimit service = some config)
    (h : Log.run seed noClientLog slots rateLimit tsOffset calls = .ok log) :
    log.Tracked seed ∧ log.limit service = RateLimit.toLimit (some config) ∧
      log.tsOffset = tsOffset := by
  obtain ⟨log₀, hinit, hcalls⟩ := bind_eq_ok_iff.mp h
  obtain ⟨hlog₀, hlimit₀, hoffset₀⟩ := initialise_tracked hconfig hinit
  have hrun : log.Tracked seed ∧ log₀.SameConfig log := by
    refine foldlM_invariant (P := fun log => log.Tracked seed ∧ log₀.SameConfig log)
      (fun log call log' hlog hstep => ?_) ⟨hlog₀, rfl, rfl, rfl⟩ hcalls
    obtain ⟨log'', hstep', hlog', hlimit, hoffset, hactive⟩ := step_tracked hlog.1 call
    obtain rfl : log' = log'' := Except.ok.inj (hstep.symm.trans hstep')
    exact ⟨hlog', hlimit.trans hlog.2.1, hoffset.trans hlog.2.2.1, hactive.trans hlog.2.2.2⟩
  refine ⟨hrun.1, ?_, hrun.2.2.1.trans hoffset₀⟩
  rw [hrun.2.1, hlimit₀]
  exact congrArg RateLimit.toLimit hconfig

/-- **The rate of responses is limited.** In every state of a run, the maximum number of
tokens is computed without truncation and no record has more tokens. In any window of a run
which starts with an access of a client and in which its record is not evicted, the responses
which are paid by tokens are at most a burst, the number of intervals from the first hit to
the last one, and one more. -/
theorem run_rate_limit {noClientLog : Bool} {slots : ℕ} {rateLimit : Service → Option RateLimit}
    {tsOffset : BitVec 32} {before : List LogCall} {service : Service} {config : RateLimit}
    (hconfig : rateLimit service = some config)
    (hrun : Log.run seed noClientLog slots rateLimit tsOffset before = .ok log) :
    (log.limit service).Fits config ∧
      (∀ record, log.Has record → record.ipAddr ≠ .unspec → record.Limited log.limit) ∧
      ∀ (ip : IPAddr) (now : Timespec) (limited : List (Bool × Bool)) (calls : List LogCall)
        (a b : ℕ), ip.isReal = true →
        log.Keeps seed ip (.access service ip now limited :: calls) →
        a = (getTsFromTimespec tsOffset now).toNat →
        (a :: calls.filterMap (LogCall.hitTs tsOffset service ip)).Pairwise (· ≤ ·) →
        (∀ t ∈ a :: calls.filterMap (LogCall.hitTs tsOffset service ip), t ≤ b) →
        (log.totalPaid seed service ip (.access service ip now limited :: calls) : ℚ) ≤
          config.effectiveBurst + ((b : ℚ) - a) / 2 ^ (config.clampedInterval + tsFrac) + 1 := by
  obtain ⟨hlog, hlimit, rfl⟩ := run_tracked hconfig hrun
  have hfits : (log.limit service).Fits config := by
    rw [hlimit]
    exact toLimit_fits config
  refine ⟨hfits, hlog.limited, fun ip now limited calls a b hip hkept ha hsorted hlast => ?_⟩
  obtain ⟨log', hstep, -, hkept'⟩ := hkept
  obtain ⟨log'', hstep', hlog', hlimit', hoffset, -⟩ := step_tracked hlog
    (.access service ip now limited)
  obtain rfl : log' = log'' := Except.ok.inj (hstep.symm.trans hstep')
  obtain ⟨b₀, record, hb₀, htokens, hrecord, hrecordIp, hrun₀, hlast₀⟩ :=
    step_first hlog hip hfits.tokensPerHit now limited hstep
  rw [← ha] at hb₀ hlast₀
  have hsorted' : ((record.bucket service).last ::
      calls.filterMap (LogCall.hitTs log'.tsOffset service ip)).Pairwise (· ≤ ·) := by
    rw [hlast₀, hoffset]
    exact hsorted
  obtain ⟨b₁, hrun₁, hb₁⟩ := calls_follow hlog' hrecord hrecordIp (isReal_ne_unspec hip)
    (by rw [hlimit']; exact hfits.tokensPerHit) hkept' hsorted'
  rw [hlimit'] at hrun₁
  rw [hlast₀, hoffset] at hb₁
  have hpaid := (hrun₀.trans hrun₁).paid_le (credit_mono _)
  have hcredit := credit_mono (log.limit service) (hlast _ hb₁)
  refine hfits.paid_le ?_
  rw [Log.totalPaid, hstep]
  rw [hb₀] at hpaid
  dsimp only
  omega

/-- The rate of the NTP service is limited with the default options. -/
def sampleRateLimit : Service → Option RateLimit
  | .ntp => some ⟨3, 8, 2, 0⟩
  | _ => none

/-- Requests of a client and another one after the first request of a window. -/
def sampleWindow : List LogCall :=
  [.access .ntp (.inet4 2) ⟨1800000012, 0⟩ [(true, true)],
    .access .ntp (.inet4 1) ⟨1800000020, 500000000⟩ [(true, true), (false, true)]]

theorem run_rate_limit_sampleWindow : ∃ log,
    Log.run 0 false 1 sampleRateLimit 0 [.access .ntp (.inet4 1) ⟨1800000000, 0⟩ []] = .ok log ∧
      (log.totalPaid 0 .ntp (.inet4 1)
        (.access .ntp (.inet4 1) ⟨1800000010, 0⟩ [(true, true)] :: sampleWindow) : ℚ) ≤
        (RateLimit.mk 3 8 2 0).effectiveBurst +
          ((3030196552 : ℕ) - (3030196384 : ℕ) : ℚ) /
            2 ^ ((RateLimit.mk 3 8 2 0).clampedInterval + tsFrac) + 1 := by
  obtain ⟨log, hrun, hlog⟩ := exists_ok_of_map_toOption
    (x := Log.run 0 false 1 sampleRateLimit 0 [.access .ntp (.inet4 1) ⟨1800000000, 0⟩ []])
    (f := fun log => decide (log.Keeps 0 (.inet4 1)
      (.access .ntp (.inet4 1) ⟨1800000010, 0⟩ [(true, true)] :: sampleWindow)))
    (b := true) (by decide +kernel)
  have hconfig : sampleRateLimit .ntp = some ⟨3, 8, 2, 0⟩ := rfl
  refine ⟨log, hrun, ?_⟩
  exact (run_rate_limit hconfig hrun).2.2 (.inet4 1) _ _ sampleWindow _ _ rfl
    (of_decide_eq_true hlog) (by decide +kernel) (by decide +kernel) (by decide +kernel)

end Chrony.ClientLog
