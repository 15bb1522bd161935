import Chrony.Ntp.Ext
import Chrony.NtpCore.Instance

/-!
# Parsing of NTP Packets

`parse_packet` from `ntp_core.c`, which finds the extension fields and the MAC in a packet.
The extension fields are parsed again by other functions. They find the same fields, which
end at the MAC or at the end of the packet.

## Main results

* `parsePacket_returns`: the loop over the fields ends.
* `parsePacket_consistent`: what is known of the fields and the MAC of an NTPv4 packet.
-/

namespace Chrony.Ntp

open Lib Bytes NtpCore

/-- `NTP_AuthMode`. -/
inductive AuthMode
  | none
  | symmetric
  | mssntp
  | mssntpExt
  | nts
  deriving DecidableEq, Repr

/-- The MAC of a packet. -/
structure Mac where
  start : ℕ
  length : ℕ
  keyId : ℕ
  deriving DecidableEq, Repr

/-- `NTP_PacketInfo`. The MAC is not set in packets which have none. -/
structure PacketInfo where
  length : ℕ
  version : ℕ
  mode : NtpMode
  extFields : ℕ
  extFieldFlags : ℕ
  authMode : AuthMode
  mac : Option Mac
  deriving DecidableEq, Repr

/-- The mode with a number. -/
def ntpMode : ℕ → NtpMode
  | 0 => .undefined
  | 1 => .active
  | 2 => .passive
  | 3 => .client
  | 4 => .server
  | 5 => .broadcast
  | _ => .reserved

/-- `NTP_EF_NTS_UNIQUE_IDENTIFIER`. -/
def ntpEfNtsUniqueIdentifier : ℕ := 0x0104

/-- `NTP_EF_NTS_COOKIE`. -/
def ntpEfNtsCookie : ℕ := 0x0204

/-- `NTP_EF_NTS_COOKIE_PLACEHOLDER`. -/
def ntpEfNtsCookiePlaceholder : ℕ := 0x0304

/-- `NTP_EF_NTS_AUTH_AND_EEF`. -/
def ntpEfNtsAuthAndEef : ℕ := 0x0404

/-- `NTP_EF_NET_CORRECTION`. -/
def ntpEfNetCorrection : ℕ := 0x010A

/-- `NTP_EF_EXP_MONO_ROOT`. -/
def ntpEfExpMonoRoot : ℕ := 0xF323

/-- `NTP_EF_FLAG_NET_CORRECTION`. -/
def ntpEfFlagNetCorrection : ℕ := 0x1

/-- `NTP_EF_FLAG_EXP_MONO_ROOT`. -/
def ntpEfFlagExpMonoRoot : ℕ := 0x2

/-- `NTP_EF_EXP_MONO_ROOT_MAGIC`. -/
def ntpEfExpMonoRootMagic : ℕ := 0xF5BEDD9A

/-- The length of the bodies of both non-authentication fields. -/
def efBodyLength : ℕ := 24

/-- The types of NTS fields. -/
def isNtsType (type : ℕ) : Bool :=
  type = ntpEfNtsUniqueIdentifier || type = ntpEfNtsCookie ||
    type = ntpEfNtsCookiePlaceholder || type = ntpEfNtsAuthAndEef

/-- A field is counted, and its type is recorded. -/
def PacketInfo.withField (info : PacketInfo) (field : ExtField) : PacketInfo :=
  let info := { info with extFields := info.extFields + 1 }
  if isNtsType field.type then { info with authMode := .nts }
  else if field.type = ntpEfNetCorrection then
    if field.bodyLength = efBodyLength then
      { info with extFieldFlags := info.extFieldFlags ||| ntpEfFlagNetCorrection }
    else info
  else if field.type = ntpEfExpMonoRoot then
    if field.bodyLength = efBodyLength ∧ decode32 field.body = ntpEfExpMonoRootMagic then
      { info with extFieldFlags := info.extFieldFlags ||| ntpEfFlagExpMonoRoot }
    else info
  else info

/-- Why a packet is not accepted. -/
inductive ParseError
  | length
  | version
  | format
  | fuel
  deriving DecidableEq, Repr

/-- The loop of `parse_packet` over the extension fields. It returns the position of the
remaining data. -/
def parseFields (packet : List Byte) :
    ℕ → PacketInfo → ℕ → Except ParseError (PacketInfo × ℕ)
  | 0, _, _ => .error .fuel
  | fuel + 1, info, parsed =>
      let remainder := info.length - parsed
      if remainder > 0 ∧ ¬(remainder ≥ ntpMinMacLength ∧ remainder ≤ ntpMaxV4MacLength) then
        match parseField packet info.length parsed with
        | none => .error .format
        | some (field, efLength) =>
            parseFields packet fuel (info.withField field) (parsed + efLength)
      else .ok (info, parsed)

/-- `is_zero_data`. -/
def isZeroData (data : List Byte) : Bool := data.all (· = 0)

/-- The MAC from a position to the end of the packet. -/
def macFrom (packet : List Byte) (start : ℕ) : Mac :=
  ⟨start, packet.length - start, decode32 (packet.drop start)⟩

/-- The part of `parse_packet` for packets of older versions, which have no extension
fields. -/
def parseOldPacket (packet : List Byte) (info : PacketInfo) : PacketInfo :=
  let mac := macFrom packet ntpHeaderLength
  let authMode :=
    if info.version = 3 ∧ mac.keyId ≠ 0 then
      if mac.length = 20 ∧ isZeroData (packet.drop (ntpHeaderLength + 4)) then .mssntp
      else if mac.length = 72 ∧ isZeroData (packet.drop (ntpHeaderLength + 8)) then .mssntpExt
      else .symmetric
    else AuthMode.symmetric
  { info with authMode, mac := some mac }

/-- The information from the header. -/
def headerInfo (packet : List Byte) : PacketInfo where
  length := packet.length
  version := lvmToVersion (packet.headD 0)
  mode := ntpMode (lvmToMode (packet.headD 0))
  extFields := 0
  extFieldFlags := 0
  authMode := .none
  mac := none

/-- The part of `parse_packet` for NTPv4 packets with data after the header. -/
def parseNewPacket (packet : List Byte) (info : PacketInfo) : Except ParseError PacketInfo := do
  if packet.length - ntpHeaderLength = 4 ∧ decode32 (packet.drop ntpHeaderLength) = 0 then
    .ok { info with authMode := .symmetric, mac := some (macFrom packet ntpHeaderLength) }
  else
    let r ← parseFields packet packet.length info ntpHeaderLength
    let remainder := packet.length - r.2
    if remainder = 0 then .ok r.1
    else if remainder ≥ ntpMinMacLength then
      .ok { r.1 with authMode := .symmetric, mac := some (macFrom packet r.2) }
    else .error .format

/-- `parse_packet`. -/
def parsePacket (packet : List Byte) : Except ParseError PacketInfo :=
  if packet.length < ntpHeaderLength ∨ packet.length % 4 ≠ 0 then .error .length
  else
    let info := headerInfo packet
    if info.version < 1 ∨ info.version > 4 then .error .version
    else if packet.length ≤ ntpHeaderLength then .ok info
    else if info.version ≤ 3 then .ok (parseOldPacket packet info)
    else parseNewPacket packet info

/-! ### Adding of fields -/

/-- `NEF_AddField`. The data of the packet end at the length in its information. -/
def addField (packet : List Byte) (info : PacketInfo) (type : ℕ) (body : List Byte) :
    Option (List Byte × PacketInfo) :=
  if info.length < ntpHeaderLength ∨ info.length ≥ maxPacketLength ∨ info.length % 4 ≠ 0 then none
  else if info.version ≠ 4 then none
  else if !canFormatField maxPacketLength info.length body.length then none
  else if 4 + body.length < ntpMinEfLength then none
  else
    some (packet.take info.length ++ encodeField type body,
      { info with length := info.length + (4 + body.length), extFields := info.extFields + 1 })

theorem addField_eq_some {packet packet' : List Byte} {info info' : PacketInfo} {type : ℕ}
    {body : List Byte} (h : addField packet info type body = some (packet', info')) :
    packet' = packet.take info.length ++ encodeField type body ∧
      info' = { info with
        length := info.length + (4 + body.length), extFields := info.extFields + 1 } ∧
      info.length + (4 + body.length) ≤ maxPacketLength ∧ body.length % 4 = 0 ∧
      info.length % 4 = 0 := by
  rw [addField] at h
  split at h
  · cases h
  · split at h
    · cases h
    · split at h
      · cases h
      next hformat =>
          split at h
          · cases h
          · obtain ⟨rfl, rfl⟩ := Prod.mk.inj (Option.some.inj h)
            rw [canFormatField] at hformat
            simp only [Bool.not_not, decide_eq_true_eq] at hformat
            refine ⟨rfl, rfl, ?_, ?_, ?_⟩
            · omega
            · omega
            · omega

/-- **A field which fits in the packet is added.** -/
theorem addField_of_le {packet : List Byte} {info : PacketInfo} {body : List Byte} (type : ℕ)
    (hversion : info.version = 4) (hmin : ntpHeaderLength ≤ info.length)
    (hmod : info.length % 4 = 0) (hbody : body.length % 4 = 0) (hef : 12 ≤ body.length)
    (hmax : info.length + (4 + body.length) ≤ maxPacketLength) :
    addField packet info type body = some (packet.take info.length ++ encodeField type body,
      { info with
        length := info.length + (4 + body.length), extFields := info.extFields + 1 }) := by
  have hlimit : maxPacketLength ≤ 0xffff := by decide
  have hformat : canFormatField maxPacketLength info.length body.length = true := by
    rw [canFormatField]
    simp only [Bool.not_eq_true', decide_eq_false_iff_not]
    omega
  have hminEf : ntpMinEfLength = 16 := rfl
  rw [addField, if_neg (by omega), if_neg (by omega), if_neg (by rw [hformat]; decide),
    if_neg (by omega)]

/-! ### The fields of a packet -/

theorem withField_eq (info : PacketInfo) (field : ExtField) :
    (info.withField field).extFields = info.extFields + 1 ∧
      (info.withField field).length = info.length ∧
      (info.withField field).version = info.version ∧
      (info.withField field).mac = info.mac := by
  unfold PacketInfo.withField
  dsimp only
  repeat' split
  all_goals exact ⟨rfl, rfl, rfl, rfl⟩

/-- **The loop over the fields ends.** Each of them is shorter than the remaining data. -/
theorem parseFields_ne_fuel {packet : List Byte} {fuel parsed : ℕ} {info : PacketInfo}
    (hfuel : info.length - parsed < fuel) : parseFields packet fuel info parsed ≠ .error .fuel := by
  induction fuel generalizing info parsed with
  | zero => cases hfuel
  | succ fuel ih =>
      rw [parseFields]
      split
      · split
        · nofun
        next field efLength hfield =>
            have hbounds := parseField_bounds hfield
            refine ih ?_
            rw [(withField_eq info field).2.1]
            omega
      · nofun

/-- **The fields which are found by the loop.** -/
theorem parseFields_scan {packet : List Byte} {fuel parsed stop : ℕ} {info info' : PacketInfo}
    (h : parseFields packet fuel info parsed = .ok (info', stop)) (hle : parsed ≤ info.length) :
    ∃ fields, Scan (parseField packet info.length) parsed fields stop ∧ stop ≤ info.length ∧
      info'.extFields = info.extFields + fields.length ∧ info'.length = info.length ∧
      info'.version = info.version ∧ info'.mac = info.mac ∧
      (stop = info.length ∨ info.length - stop ≤ ntpMaxV4MacLength) := by
  induction fuel generalizing info parsed with
  | zero => cases h
  | succ fuel ih =>
      rw [parseFields] at h
      split at h
      · split at h
        · cases h
        next field efLength hfield =>
            obtain ⟨hcount, hlength, hversion, hmac⟩ := withField_eq info field
            have hbounds := parseField_bounds hfield
            obtain ⟨fields, hscan, hstop, hcount', hlength', hversion', hmac', hor⟩ :=
              ih h (by rw [hlength]; omega)
            rw [hlength] at hscan hstop hlength' hor
            refine ⟨field :: fields, .cons hfield hscan, hstop, ?_, hlength',
              hversion'.trans hversion, hmac'.trans hmac, hor⟩
            rw [hcount', hcount, List.length_cons]
            omega
      next hend =>
          obtain ⟨rfl, rfl⟩ := Prod.mk.inj (Except.ok.inj h)
          refine ⟨[], .nil _, hle, rfl, rfl, rfl, rfl, ?_⟩
          omega

/-- **The fields of a packet, and its MAC.** The fields are those which are found by any
iteration of `NEF_ParseField` from the end of the header. -/
structure PacketInfo.Consistent (info : PacketInfo) (packet : List Byte)
    (fields : List ExtField) (stop : ℕ) : Prop where
  length : info.length = packet.length
  scan : Scan (parseField packet info.length) ntpHeaderLength fields stop
  last : parseField packet info.length stop = none
  count : fields.length = info.extFields
  noMac : info.mac = none → stop = info.length
  mac : ∀ mac, info.mac = some mac → info.authMode = .symmetric ∧ stop = mac.start ∧
    mac.start + mac.length = info.length ∧
    ((ntpMinMacLength ≤ mac.length ∧ mac.length ≤ ntpMaxV4MacLength) ∨
      (mac.length = 4 ∧ mac.keyId = 0))

/-- The three formats of accepted packets. -/
theorem parsePacket_cases {packet : List Byte} {info : PacketInfo}
    (h : parsePacket packet = .ok info) :
    (packet.length = ntpHeaderLength ∧ info = headerInfo packet) ∨
      ((headerInfo packet).version ≤ 3 ∧ info = parseOldPacket packet (headerInfo packet)) ∨
      (ntpHeaderLength < packet.length ∧ parseNewPacket packet (headerInfo packet) = .ok info) := by
  rw [parsePacket] at h
  split at h
  · cases h
  · dsimp only at h
    split at h
    · cases h
    · split at h
      · exact .inl ⟨by omega, (Except.ok.inj h).symm⟩
      · split at h
        next hold => exact .inr (.inl ⟨hold, (Except.ok.inj h).symm⟩)
        next => exact .inr (.inr ⟨by omega, h⟩)

/-- An NTPv4 packet with a MAC. -/
theorem PacketInfo.Consistent.of_mac {packet : List Byte} {info : PacketInfo}
    {fields : List ExtField} {stop : ℕ} (hlength : info.length = packet.length)
    (hscan : Scan (parseField packet info.length) ntpHeaderLength fields stop)
    (hcount : fields.length = info.extFields) (hauth : info.authMode = .symmetric)
    (hmac : info.mac = some (macFrom packet stop)) (hstop : stop ≤ packet.length)
    (hmax : packet.length - stop ≤ ntpMaxV4MacLength)
    (hmin : ntpMinMacLength ≤ packet.length - stop ∨
      (packet.length - stop = 4 ∧ decode32 (packet.drop stop) = 0)) :
    info.Consistent packet fields stop where
  length := hlength
  scan := hscan
  last := parseField_eq_none (by omega)
  count := hcount
  noMac hnone := by
    rw [hmac] at hnone
    cases hnone
  mac mac hsome := by
    obtain rfl := Option.some.inj (hmac.symm.trans hsome)
    refine ⟨hauth, rfl, ?_, hmin.imp (fun hmin => ⟨hmin, hmax⟩) id⟩
    rw [hlength]
    exact Nat.add_sub_cancel' hstop

theorem parseNewPacket_consistent {packet : List Byte} {info : PacketInfo}
    (hlt : ntpHeaderLength < packet.length)
    (h : parseNewPacket packet (headerInfo packet) = .ok info) :
    ∃ fields stop, info.Consistent packet fields stop := by
  rw [parseNewPacket] at h
  split at h
  next hnak =>
      obtain rfl := Except.ok.inj h
      refine ⟨[], ntpHeaderLength, .of_mac rfl (.nil _) rfl rfl rfl hlt.le ?_ (.inr hnak)⟩
      rw [hnak.1]
      decide
  next =>
      obtain ⟨⟨info', stop⟩, hparse, h⟩ := bind_eq_ok_iff.mp h
      obtain ⟨fields, hscan, hstop, hcount, hinfo, -, hmac, hor⟩ := parseFields_scan hparse hlt.le
      have hlength : (headerInfo packet).length = packet.length := rfl
      have hzero : (headerInfo packet).extFields = 0 := rfl
      rw [hzero, Nat.zero_add] at hcount
      rw [hlength] at hscan hstop hinfo hor
      rw [← hinfo] at hscan
      dsimp only at h
      split at h
      next hrem =>
          obtain rfl := Except.ok.inj h
          obtain rfl : stop = packet.length := by omega
          refine ⟨fields, packet.length, hinfo, hscan, ?_, hcount.symm, fun _ => hinfo.symm, ?_⟩
          · exact parseField_eq_none (by omega)
          · rw [hmac]
            nofun
      next hrem =>
          split at h
          next hmin =>
              obtain rfl := Except.ok.inj h
              exact ⟨fields, stop, .of_mac hinfo hscan hcount.symm rfl rfl hstop (by omega)
                (.inl hmin)⟩
          next => cases h

/-- **The fields of every accepted NTPv4 packet.** -/
theorem parsePacket_consistent {packet : List Byte} {info : PacketInfo}
    (h : parsePacket packet = .ok info) (hversion : info.version = 4) :
    ∃ fields stop, info.Consistent packet fields stop := by
  rcases parsePacket_cases h with ⟨hheader, rfl⟩ | ⟨hold, rfl⟩ | ⟨hlt, hnew⟩
  · refine ⟨[], packet.length, rfl, ?_, parseField_eq_none ?_, rfl, fun _ => rfl, nofun⟩
    · rw [hheader]
      exact .nil _
    · exact Nat.le_add_right _ _
  · have hversion' : (headerInfo packet).version = 4 := hversion
    omega
  · exact parseNewPacket_consistent hlt hnew

/-- **Every packet is accepted or rejected**, whatever its length. -/
theorem parsePacket_returns (packet : List Byte) : parsePacket packet ≠ .error .fuel := by
  rw [parsePacket]
  split
  · nofun
  · dsimp only
    split
    · nofun
    · split
      · nofun
      next hheader =>
          split
          · nofun
          · rw [parseNewPacket]
            split
            · nofun
            · intro h
              rcases bind_eq_error_iff.mp h with h | ⟨r, -, h⟩
              · refine parseFields_ne_fuel ?_ h
                exact Nat.sub_lt (Nat.zero_lt_of_lt (not_le.mp hheader)) (by decide)
              · dsimp only at h
                split at h
                · cases h
                · split at h
                  · cases h
                  · cases h

end Chrony.Ntp
