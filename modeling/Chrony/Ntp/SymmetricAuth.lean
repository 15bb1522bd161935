import Chrony.Keys
import Chrony.Ntp.Buffer

/-!
# Symmetric Authentication

`generate_symmetric_auth` and `check_symmetric_auth` from `ntp_auth.c`. The number of the key
and a digest of the packet are written after the data. The receiver finds them by the length
of the packet, and cuts its own digest by the length of the MAC.

## Main results

* `generateSymmetricAuth_eq`: the MAC which is written.
* `parsePacket_append_mac`: the MAC is found where it was written.
* `symmetricAuth_round_trip`: the MAC is accepted, and no other digest is.
-/

namespace Chrony.Ntp

open Lib Bytes NtpCore Keys

/-- The length of the longest MAC in packets of a version. -/
def maxMacLength (version : ℕ) : ℕ := if version = 4 then ntpMaxV4MacLength else ntpMaxMacLength

/-- `generate_symmetric_auth`. The number of the key is written after the digest. -/
def generateSymmetricAuth (digests : Digests) (store : KeyStore) (keyId : ℕ) (out : Outgoing) :
    Outgoing × KeyStore × Bool :=
  let length := out.info.length
  if length + ntpMinMacLength > maxPacketLength then (out, store, false)
  else
    let maxAuthLength := min (maxMacLength out.info.version - 4) (maxPacketLength - length - 4)
    let r := keyGenerateAuth digests store keyId out.data maxAuthLength
    let packet := out.packet.write (length + 4) r.1
    if r.1.length < ntpMinMacLength - 4 then ({ out with packet }, r.2, false)
    else
      let mac : Mac := ⟨length, 4 + r.1.length, keyId⟩
      ({ packet := packet.write length (encode32 keyId)
         info := { out.info with length := length + mac.length, mac := some mac } }, r.2, true)

/-- `check_symmetric_auth`. It is called only for packets with a MAC. -/
def checkSymmetricAuth (digests : Digests) (store : KeyStore) (packet : List Byte)
    (info : PacketInfo) : Bool × KeyStore :=
  match info.mac with
  | none => (false, store)
  | some mac =>
      if mac.length < ntpMinMacLength then (false, store)
      else
        let truncLength :=
          if info.version = 4 ∧ mac.length ≤ ntpMaxV4MacLength then ntpMaxV4MacLength
          else ntpMaxMacLength
        keyCheckAuth digests store mac.keyId (packet.take mac.start)
          (slice packet (mac.start + 4) (mac.length - 4)) (truncLength - 4)

/-! ### The sender -/

/-- Bytes which were written behind and then before a position are those of one copy. -/
theorem overwrite_overwrite {data front back : List Byte} {start : ℕ}
    (h : start + front.length + back.length ≤ data.length) :
    (overwrite (overwrite data (start + front.length) back) start front).take
      (start + (front.length + back.length)) = data.take start ++ (front ++ back) := by
  have hfront : (data.take (start + front.length)).length = start + front.length :=
    List.length_take_of_le (by omega)
  have hback : (overwrite data (start + front.length) back).drop (start + front.length) =
      back ++ data.drop (start + front.length + back.length) := by
    rw [overwrite, List.drop_left' hfront, List.take_of_length_le (l := back) (by omega)]
  have hstart : (overwrite data (start + front.length) back).take start = data.take start :=
    take_overwrite (Nat.le_add_right _ _)
  have hlength : (data.take start ++ (front ++ back)).length =
      start + (front.length + back.length) := by
    rw [List.length_append, List.length_append, List.length_take_of_le (by omega)]
  rw [overwrite, hstart, hback, length_overwrite, List.take_of_length_le (l := front) (by omega),
    ← List.append_assoc front, ← List.append_assoc, ← hlength, List.take_left]

/-- **The MAC which is written.** -/
theorem generateSymmetricAuth_eq {digests : Digests} {store : KeyStore} {keyId : ℕ} {key : Key}
    {out : Outgoing} {auth : List Byte}
    (hkey : (store.getKeyById keyId).1 = some key)
    (hroom : out.info.length + maxMacLength out.info.version ≤ maxPacketLength)
    (hauth : auth = (key.digest digests out.data).take (maxMacLength out.info.version - 4))
    (hmin : 16 ≤ auth.length) :
    ∃ out', generateSymmetricAuth digests store keyId out =
        (out', (store.getKeyById keyId).2, true) ∧
      out'.data = out.data ++ (encode32 keyId ++ auth) ∧
      out'.info = { out.info with
        length := out.info.length + (4 + auth.length)
        mac := some ⟨out.info.length, 4 + auth.length, keyId⟩ } := by
  have hle : auth.length ≤ maxMacLength out.info.version - 4 := by
    rw [hauth]
    exact List.length_take_le _ _
  have hlimit : min (maxMacLength out.info.version - 4) (maxPacketLength - out.info.length - 4) =
      maxMacLength out.info.version - 4 := by omega
  have hminMac : ntpMinMacLength = 20 := rfl
  rw [generateSymmetricAuth]
  dsimp only
  rw [if_neg (by omega), hlimit, keyGenerateAuth_eq hkey, ← hauth]
  dsimp only
  rw [if_neg (by omega)]
  refine ⟨_, rfl, ?_, rfl⟩
  have hlength := out.packet.length_bytes
  have hencode := length_encode32 keyId
  have hbytes : out.info.length + (encode32 keyId).length + auth.length ≤
      out.packet.bytes.length := by omega
  exact overwrite_overwrite hbytes

/-! ### The receiver -/

/-- The MAC of a packet with a number of a key and a digest after other data. -/
theorem macFrom_append {data auth : List Byte} {keyId : ℕ} (hid : keyId < 2 ^ 32) :
    macFrom (data ++ (encode32 keyId ++ auth)) data.length =
      ⟨data.length, 4 + auth.length, keyId⟩ := by
  rw [macFrom, List.drop_left, decode32_encode32 hid, List.length_append, List.length_append,
    length_encode32, Nat.add_sub_cancel_left]

/-- **The digest which is accepted** after other data. The receiver cuts its digest as the
sender does, whatever the length of the digest in the packet. -/
theorem checkSymmetricAuth_eq {digests : Digests} {store : KeyStore} {keyId : ℕ} {key : Key}
    {data auth : List Byte} {info : PacketInfo} (hid : keyId < 2 ^ 32)
    (hkey : (store.getKeyById keyId).1 = some key)
    (hmac : info.mac = some (macFrom (data ++ (encode32 keyId ++ auth)) data.length))
    (hmin : 16 ≤ auth.length) (hmax : auth.length ≤ maxMacLength info.version - 4) :
    (checkSymmetricAuth digests store (data ++ (encode32 keyId ++ auth)) info).1 =
      decide (auth = (key.digest digests data).take (maxMacLength info.version - 4)) := by
  have hmin' : ¬4 + auth.length < ntpMinMacLength := by
    rw [ntpMinMacLength]
    omega
  have htrunc : (if info.version = 4 ∧ 4 + auth.length ≤ ntpMaxV4MacLength then
      ntpMaxV4MacLength else ntpMaxMacLength) = maxMacLength info.version := by
    rw [maxMacLength] at hmax ⊢
    split at hmax
    next hversion =>
        rw [if_pos hversion, if_pos ⟨hversion, by rw [ntpMaxV4MacLength] at hmax ⊢; omega⟩]
    next hversion => rw [if_neg hversion, if_neg fun h => hversion h.1]
  have hcut : min maxHashLength (maxMacLength info.version - 4) =
      maxMacLength info.version - 4 := by
    rw [maxMacLength]
    split
    · decide
    · decide
  have hslice : slice (data ++ (encode32 keyId ++ auth)) (data.length + 4) auth.length = auth := by
    rw [← List.append_assoc, ← length_encode32 keyId, ← List.length_append]
    have hread := slice_append (data ++ encode32 keyId) auth []
    rw [List.append_nil] at hread
    exact hread
  rw [checkSymmetricAuth, hmac, macFrom_append hid]
  dsimp only
  rw [if_neg hmin', htrunc, Nat.add_sub_cancel_left, hslice, List.take_left,
    keyCheckAuth_eq hkey, hcut]

/-- A MAC of an older version is not the request of a signature if it has a digest. -/
theorem authMode_parseOldPacket {packet : List Byte} (info : PacketInfo)
    (hzero : ¬isZeroData (packet.drop (ntpHeaderLength + 4)))
    (hmax : packet.length ≤ ntpHeaderLength + ntpMaxMacLength) :
    (parseOldPacket packet info).authMode = .symmetric := by
  have hlength : (macFrom packet ntpHeaderLength).length ≠ 72 := by
    change packet.length - ntpHeaderLength ≠ 72
    rw [ntpMaxMacLength] at hmax
    omega
  rw [parseOldPacket]
  dsimp only
  split
  · rw [if_neg fun h => hzero h.2, if_neg fun h => hlength h.1]
  · rfl

/-- **The MAC is found where it was written**, after the extension fields. In version 3 a
digest of zeros may be the request of a signature. -/
theorem parsePacket_append_mac {before data auth : List Byte} {fields : List NewField}
    {keyId version : ℕ} (hversion : version = 3 ∨ version = 4)
    (hlvm : lvmToVersion (data.headD 0) = version) (hheader : before.length = ntpHeaderLength)
    (hdata : data = before ++ fields.flatMap NewField.encode)
    (hfields : ∀ f ∈ fields, f.body.length % 4 = 0 ∧ ntpMinEfLength ≤ 4 + f.body.length)
    (hold : version = 3 → fields = [])
    (hroom : data.length + maxMacLength version ≤ maxPacketLength)
    (hmin : 16 ≤ auth.length) (hmax : auth.length ≤ maxMacLength version - 4)
    (hmod : auth.length % 4 = 0) :
    ∃ info, parsePacket (data ++ (encode32 keyId ++ auth)) = .ok info ∧ info.version = version ∧
      info.extFields = fields.length ∧
      info.mac = some (macFrom (data ++ (encode32 keyId ++ auth)) data.length) ∧
      (version = 4 ∨ ¬isZeroData auth → info.authMode = .symmetric) := by
  have hlength : (data ++ (encode32 keyId ++ auth)).length =
      data.length + (4 + auth.length) := by
    rw [List.length_append, List.length_append, length_encode32]
  have hhead : (data ++ (encode32 keyId ++ auth)).headD 0 = data.headD 0 := by
    have hne : data ≠ [] := by
      rw [hdata]
      exact fun h => by rw [(List.append_eq_nil_iff.mp h).1] at hheader; cases hheader
    obtain ⟨b, rest, rfl⟩ := List.exists_cons_of_ne_nil hne
    rfl
  have haligned := length_fields_mod fun f hf => (hfields f hf).1
  have hsize : data.length = ntpHeaderLength + (fields.flatMap NewField.encode).length := by
    rw [hdata, List.length_append, hheader]
  have hheaderMod : ntpHeaderLength % 4 = 0 := rfl
  rcases hversion with rfl | rfl
  · obtain rfl := hold rfl
    rw [List.flatMap_nil, List.length_nil, Nat.add_zero] at hsize
    rw [parsePacket, if_neg (by omega)]
    have hversion' : (headerInfo (data ++ (encode32 keyId ++ auth))).version = 3 :=
      (congrArg lvmToVersion hhead).trans hlvm
    dsimp only
    rw [hversion', if_neg (by decide), if_neg (by omega), if_pos (by decide)]
    refine ⟨_, rfl, hversion', rfl, ?_, ?_⟩
    · rw [hsize]
      rfl
    · intro hzero
      have hdrop : (data ++ (encode32 keyId ++ auth)).drop (ntpHeaderLength + 4) = auth := by
        rw [← hsize, ← List.append_assoc, ← length_encode32 keyId, ← List.length_append,
          List.drop_left]
      have hmaxMac : maxMacLength 3 = ntpMaxMacLength := rfl
      refine authMode_parseOldPacket _ ?_ (by omega)
      rw [hdrop]
      exact hzero.resolve_left (by decide)
  · have hmac : (encode32 keyId ++ auth).length = 4 + auth.length := by
      rw [List.length_append, length_encode32]
    have hlimit : maxMacLength 4 = 24 := rfl
    have hminMac : ntpMinMacLength = 20 := rfl
    have hmaxMac : ntpMaxV4MacLength = 24 := rfl
    have hbytes : data ++ (encode32 keyId ++ auth) =
        before ++ (fields.flatMap NewField.encode ++ (encode32 keyId ++ auth)) := by
      rw [hdata, List.append_assoc]
    obtain ⟨info, hparse, -, hinfo, hcount, hauth⟩ := parsePacket_layout hbytes hheader
      (hhead ▸ hlvm) (by omega) (by omega) hfields (.inl (by omega)) (.inr (by omega))
    obtain ⟨hmode, hfound⟩ := hauth (List.ne_nil_of_length_pos (by omega))
    refine ⟨info, hparse, hinfo, hcount, ?_, fun _ => hmode⟩
    rw [hfound, hlength, hmac, Nat.add_sub_cancel]

/-! ### The round trip -/

theorem Outgoing.version_addFields {out out' : Outgoing} {fields : List NewField}
    (h : out.addFields fields = (out', true)) : out'.info.version = out.info.version := by
  induction fields generalizing out with
  | nil => rw [(Prod.mk.inj h).1]
  | cons field fields ih =>
      rw [Outgoing.addFields] at h
      split at h
      next hadd =>
          rw [ih h, (Outgoing.add_true hadd).2.1]
          rfl
      next hadd =>
          rw [h] at hadd
          exact absurd rfl hadd

/-- Packets of other versions have no fields. -/
theorem Outgoing.addFields_eq_nil {out out' : Outgoing} {fields : List NewField}
    (h : out.addFields fields = (out', true)) (hversion : out.info.version ≠ 4) : fields = [] := by
  cases fields with
  | nil => rfl
  | cons field fields =>
      rw [Outgoing.addFields] at h
      split at h
      next hadd => exact absurd (Outgoing.add_true hadd).1.version hversion
      next hadd =>
          rw [h] at hadd
          exact absurd rfl hadd

/-- **The MAC round trip.** A MAC is written to every packet with room for the longest one. The
packet is accepted as symmetric with the same key, MAC and number of extension fields, and
the MAC is accepted. No packet which has other bytes of the digest is accepted. -/
theorem symmetricAuth_round_trip {digests : Digests} {sender receiver : KeyStore} {key : Key}
    {keyId : ℕ} {start out : Outgoing} {fields : List NewField}
    (hversion : start.info.version = 3 ∨ start.info.version = 4)
    (hlvm : lvmToVersion (start.packet.bytes.headD 0) = start.info.version)
    (hlength : start.info.length = ntpHeaderLength) (hempty : start.info.extFields = 0)
    (hfields : start.addFields fields = (out, true))
    (hroom : out.info.length + maxMacLength start.info.version ≤ maxPacketLength)
    (hid : keyId < 2 ^ 32)
    (hsender : (sender.getKeyById keyId).1 = some key)
    (hreceiver : (receiver.getKeyById keyId).1 = some key)
    (hmin : 16 ≤ (key.digest digests out.data).length)
    (hmax : (key.digest digests out.data).length ≤ 64)
    (hmod : (key.digest digests out.data).length % 4 = 0)
    (hzero : start.info.version = 3 → ¬isZeroData (key.digest digests out.data)) :
    ∃ out' sender', generateSymmetricAuth digests sender keyId out = (out', sender', true) ∧
      (∃ info mac, parsePacket out'.data = .ok info ∧ info.authMode = .symmetric ∧
        info.mac = some mac ∧ mac.keyId = keyId ∧ mac.start = out.info.length ∧
        mac.length = out'.info.length - out.info.length ∧
        info.extFields = out'.info.extFields ∧
        (checkSymmetricAuth digests receiver out'.data info).1 = true) ∧
      ∀ packet, packet.length = out'.data.length →
        packet.take (out.info.length + 4) = out'.data.take (out.info.length + 4) →
        packet ≠ out'.data → ∀ info, parsePacket packet = .ok info →
          (checkSymmetricAuth digests receiver packet info).1 = false := by
  have hversion' := Outgoing.version_addFields hfields
  obtain ⟨hdata, -, hcount, -, hvalid⟩ := Outgoing.addFields_true hfields
  have hheader : start.data.length = ntpHeaderLength := by
    rw [Outgoing.data, List.length_take, start.packet.length_bytes, hlength]
    decide
  have hout : out.data.length = out.info.length := by
    rw [Outgoing.data, List.length_take, out.packet.length_bytes]
    omega
  have hhead : out.data.headD 0 = start.packet.bytes.headD 0 := by
    rw [hdata]
    exact Outgoing.headD_data (hlength ▸ (by decide)) _
  have hold : start.info.version = 3 → fields = [] := fun h =>
    Outgoing.addFields_eq_nil hfields (by rw [h]; decide)
  -- the digest as it is cut for the version
  obtain ⟨auth, hauth⟩ : ∃ auth, auth =
      (key.digest digests out.data).take (maxMacLength start.info.version - 4) := ⟨_, rfl⟩
  have hlimit : 20 ≤ maxMacLength start.info.version - 4 ∧
      (maxMacLength start.info.version - 4) % 4 = 0 := by
    rw [maxMacLength]
    split
    · decide
    · decide
  have hcut : auth.length = min (maxMacLength start.info.version - 4)
      (key.digest digests out.data).length := by
    rw [hauth, List.length_take]
  rw [← hout] at hroom
  -- every packet with a digest of this length
  have hparsed : ∀ auth' : List Byte, auth'.length = auth.length →
      ∃ info, parsePacket (out.data ++ (encode32 keyId ++ auth')) = .ok info ∧
        info.version = start.info.version ∧ info.extFields = fields.length ∧
        info.mac = some (macFrom (out.data ++ (encode32 keyId ++ auth')) out.data.length) ∧
        (start.info.version = 4 ∨ ¬isZeroData auth' → info.authMode = .symmetric) := fun auth' h =>
    parsePacket_append_mac hversion (hhead ▸ hlvm) hheader hdata hvalid hold hroom
      (by omega) (by omega) (by omega)
  have haccept : ∀ (auth' : List Byte) (info : PacketInfo), auth'.length = auth.length →
      info.version = start.info.version →
      info.mac = some (macFrom (out.data ++ (encode32 keyId ++ auth')) out.data.length) →
      (checkSymmetricAuth digests receiver (out.data ++ (encode32 keyId ++ auth')) info).1 =
        decide (auth' = auth) := by
    intro auth' info hlen hinfo hmac
    rw [checkSymmetricAuth_eq hid hreceiver hmac (by omega) (by rw [hinfo]; omega), hinfo, hauth]
  have hauth' : auth =
      (key.digest digests out.data).take (maxMacLength out.info.version - 4) := hversion' ▸ hauth
  obtain ⟨out', hgenerate, hbytes, hinfo'⟩ := generateSymmetricAuth_eq hsender
    (by rw [hversion', ← hout]; exact hroom) hauth' (by omega)
  refine ⟨out', _, hgenerate, ?_, ?_⟩
  · obtain ⟨info, hparse, hinfo, hfound, hmac, hmode⟩ := hparsed auth rfl
    refine ⟨info, _, hbytes ▸ hparse, hmode ?_, hmac, ?_, ?_, ?_, ?_, ?_⟩
    · refine hversion.symm.imp id fun hv => ?_
      have hwhole : auth = key.digest digests out.data := by
        have hcut : maxMacLength 3 - 4 = 64 := rfl
        rw [hauth, hv, hcut, List.take_of_length_le hmax]
      rw [hwhole]
      exact hzero hv
    · rw [macFrom_append hid]
    · rw [macFrom_append hid, hout]
    · rw [macFrom_append hid, hinfo', Nat.add_sub_cancel_left]
    · rw [hfound, hinfo', hcount, hempty, Nat.zero_add]
    · rw [hbytes, haccept auth info rfl hinfo hmac, decide_eq_true rfl]
  · intro packet hlen hsame hne info hparse
    -- only the digest of the packet is different
    have hprefix : out'.data.take (out.info.length + 4) = out.data ++ encode32 keyId := by
      rw [hbytes, ← List.append_assoc, ← hout, ← length_encode32 keyId, ← List.length_append,
        List.take_left]
    obtain ⟨auth', rfl⟩ : ∃ auth', packet = out.data ++ (encode32 keyId ++ auth') := by
      refine ⟨packet.drop (out.info.length + 4), ?_⟩
      rw [← List.append_assoc, ← hprefix, ← hsame, List.take_append_drop]
    have hlen' : auth'.length = auth.length := by
      rw [hbytes] at hlen
      simp only [List.length_append] at hlen
      omega
    obtain ⟨info', hparse', hinfo, -, hmac, -⟩ := hparsed auth' hlen'
    obtain rfl := Except.ok.inj (hparse'.symm.trans hparse)
    rw [haccept auth' info' hlen' hinfo hmac, decide_eq_false_iff_not]
    rintro rfl
    exact hne hbytes.symm

/-- The MD5 digest of the packet with the field and the key below. -/
def sampleDigests : Digests where
  hash _ _ := [0xce, 0xac, 0xaa, 0xca, 0x29, 0xde, 0x2b, 0x12, 0xdb, 0x6d, 0x67, 0xbf,
    0x20, 0xa9, 0x1b, 0x7a]
  cmac _ _ _ := []

/-- The only key of both sides. -/
def sampleKey : Key := ⟨5, .ntpMac [0x73, 0x65, 0x63, 0x72, 0x65, 0x74, 0x20, 0x6b, 0x65, 0x79] 0⟩

/-- The keys of both sides. -/
def sampleKeys : KeyStore := ⟨[sampleKey], none, nofun⟩

theorem symmetricAuth_round_trip_sample :
    ∃ out' sender', generateSymmetricAuth sampleDigests sampleKeys 5
        (sampleOutgoing.addFields [sampleField]).1 = (out', sender', true) ∧
      (∃ info mac, parsePacket out'.data = .ok info ∧ info.authMode = .symmetric ∧
        info.mac = some mac ∧ mac.keyId = 5 ∧
        mac.start = (sampleOutgoing.addFields [sampleField]).1.info.length ∧
        mac.length =
          out'.info.length - (sampleOutgoing.addFields [sampleField]).1.info.length ∧
        info.extFields = out'.info.extFields ∧
        (checkSymmetricAuth sampleDigests sampleKeys out'.data info).1 = true) ∧
      ∀ packet, packet.length = out'.data.length →
        packet.take ((sampleOutgoing.addFields [sampleField]).1.info.length + 4) =
          out'.data.take ((sampleOutgoing.addFields [sampleField]).1.info.length + 4) →
        packet ≠ out'.data → ∀ info, parsePacket packet = .ok info →
          (checkSymmetricAuth sampleDigests sampleKeys packet info).1 = false := by
  have hkey : (sampleKeys.getKeyById 5).1 = some sampleKey := rfl
  exact symmetricAuth_round_trip (.inr rfl) rfl rfl rfl sampleOutgoing_addFields
    (by decide +kernel) (by decide) hkey hkey (by decide) (by decide) (by decide) nofun

end Chrony.Ntp
