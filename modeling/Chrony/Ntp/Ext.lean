import Chrony.Lib.Bytes
import Chrony.Lib.Scan

/-!
# NTP Extension Fields

The format of NTPv4 extension fields, from `ntp_ext.c`. A packet is the list of its bytes,
of which `NTP_Packet` has room for `maxPacketLength`. Fields are added only to the end of the
packet.

## Main results

* `parseField_bounds`: what is known of a field which was parsed.
* `parseSingleField_encodeField`: a field is parsed as it was formatted.
-/

namespace Chrony.Ntp

open Lib Bytes

/-- `NTP_HEADER_LENGTH`. -/
def ntpHeaderLength : ℕ := 48

/-- `NTP_MIN_MAC_LENGTH`. -/
def ntpMinMacLength : ℕ := 4 + 16

/-- `NTP_MAX_MAC_LENGTH`. -/
def ntpMaxMacLength : ℕ := 4 + 64

/-- `NTP_MIN_EF_LENGTH`. -/
def ntpMinEfLength : ℕ := 16

/-- `NTP_MAX_EXTENSIONS_LENGTH`. -/
def ntpMaxExtensionsLength : ℕ := 1024 + ntpMaxMacLength

/-- `NTP_MAX_V4_MAC_LENGTH`. -/
def ntpMaxV4MacLength : ℕ := 4 + 20

/-- `sizeof (NTP_Packet)`. -/
def maxPacketLength : ℕ := ntpHeaderLength + ntpMaxExtensionsLength

/-- `NTP_LVM_TO_VERSION`, of the first byte of a packet. -/
def lvmToVersion (lvm : Byte) : ℕ := (lvm >>> 3 &&& 7#8).toNat

/-- `NTP_LVM_TO_MODE`. -/
def lvmToMode (lvm : Byte) : ℕ := (lvm &&& 7#8).toNat

/-- An extension field with its position. -/
structure ExtField where
  start : ℕ
  type : ℕ
  bodyLength : ℕ
  body : List Byte
  deriving DecidableEq, Repr

/-! ### Parsing -/

/-- `NEF_ParseSingleField`. It returns the field and its length. -/
def parseSingleField (buffer : List Byte) (bufferLength start : ℕ) : Option (ExtField × ℕ) :=
  if bufferLength ≤ start ∨ bufferLength - start < 4 then none
  else
    let efLength := decode16 (buffer.drop (start + 2))
    if efLength < 4 ∨ start + efLength > bufferLength ∨ efLength % 4 ≠ 0 then none
    else
      some ({
        start
        type := decode16 (buffer.drop start)
        bodyLength := efLength - 4
        body := slice buffer (start + 4) (efLength - 4) }, efLength)

/-- `NEF_ParseField`. -/
def parseField (packet : List Byte) (packetLength start : ℕ) : Option (ExtField × ℕ) :=
  if packetLength ≤ ntpHeaderLength ∨ packetLength > maxPacketLength ∨ packetLength ≤ start ∨
      packetLength % 4 ≠ 0 ∨ start < ntpHeaderLength ∨ start % 4 ≠ 0 then none
  else if lvmToVersion (packet.headD 0) ≠ 4 then none
  else if packetLength - start ≤ ntpMaxV4MacLength then none
  else
    match parseSingleField packet packetLength start with
    | none => none
    | some (field, efLength) => if efLength < ntpMinEfLength then none else some (field, efLength)

/-- What is known of a field in a buffer. -/
theorem parseSingleField_bounds {buffer : List Byte} {bufferLength start n : ℕ} {field : ExtField}
    (h : parseSingleField buffer bufferLength start = some (field, n)) :
    4 ≤ n ∧ n % 4 = 0 ∧ start + n ≤ bufferLength ∧ field.bodyLength + 4 = n ∧
      field.start = start ∧ field.body = slice buffer (start + 4) field.bodyLength ∧
      field.type = decode16 (buffer.drop start) := by
  rw [parseSingleField] at h
  split at h
  · cases h
  · dsimp only at h
    split at h
    · cases h
    · obtain ⟨rfl, rfl⟩ := Prod.mk.inj (Option.some.inj h)
      refine ⟨by omega, by omega, by omega, ?_, rfl, rfl, rfl⟩
      dsimp only
      omega

theorem parseField_eq_some {packet : List Byte} {packetLength start n : ℕ} {field : ExtField}
    (h : parseField packet packetLength start = some (field, n)) :
    parseSingleField packet packetLength start = some (field, n) ∧ ntpMinEfLength ≤ n ∧
      ntpMaxV4MacLength < packetLength - start := by
  rw [parseField] at h
  split at h
  · cases h
  · split at h
    · cases h
    · split at h
      · cases h
      · split at h
        · cases h
        next hparse =>
            split at h
            · cases h
            · obtain ⟨rfl, rfl⟩ := Prod.mk.inj (Option.some.inj h)
              exact ⟨hparse, by omega, by omega⟩

/-- **What is known of a field of a packet.** -/
theorem parseField_bounds {packet : List Byte} {packetLength start n : ℕ} {field : ExtField}
    (h : parseField packet packetLength start = some (field, n)) :
    16 ≤ n ∧ n % 4 = 0 ∧ start + n ≤ packetLength ∧ field.bodyLength + 4 = n ∧
      field.start = start ∧ 24 < packetLength - start := by
  obtain ⟨hparse, hmin, hmac⟩ := parseField_eq_some h
  obtain ⟨-, hmod, hle, hbody, hstart, -⟩ := parseSingleField_bounds hparse
  exact ⟨hmin, hmod, hle, hbody, hstart, hmac⟩

/-- A field is parsed only at a valid position in a packet of a valid length. -/
theorem parseField_packetLength {packet : List Byte} {packetLength start n : ℕ} {field : ExtField}
    (h : parseField packet packetLength start = some (field, n)) :
    packetLength ≤ maxPacketLength ∧ packetLength % 4 = 0 ∧ start % 4 = 0 := by
  rw [parseField] at h
  split at h
  · cases h
  · exact ⟨by omega, by omega, by omega⟩

/-- **No field is parsed from data as short as a MAC.** -/
theorem parseField_eq_none {packet : List Byte} {packetLength start : ℕ}
    (h : packetLength ≤ start + ntpMaxV4MacLength) :
    parseField packet packetLength start = none := by
  rw [parseField]
  split
  · rfl
  · split
    · rfl
    · exact if_pos (by omega)

/-! ### Formatting -/

/-- The bytes of a field. -/
def encodeField (type : ℕ) (body : List Byte) : List Byte :=
  encode16 type ++ (encode16 (4 + body.length) ++ body)

theorem length_encodeField (type : ℕ) (body : List Byte) :
    (encodeField type body).length = 4 + body.length := by
  simp only [encodeField, List.length_append, length_encode16]
  omega

/-- Whether `format_field` accepts a field at a position of a buffer. -/
def canFormatField (bufferLength start bodyLength : ℕ) : Bool :=
  !(bufferLength ≤ start ∨ bufferLength - start < 4 ∨ start % 4 ≠ 0 ∨ 4 + bodyLength > 0xffff ∨
    start + 4 + bodyLength > bufferLength ∨ bodyLength % 4 ≠ 0)

/-- **A field is parsed as it was formatted.** -/
theorem parseSingleField_encodeField {type : ℕ} (htype : type < 65536) {body : List Byte}
    (hmod : body.length % 4 = 0) (hlt : 4 + body.length ≤ 0xffff) (before after : List Byte) :
    parseSingleField (before ++ (encodeField type body ++ after))
        (before ++ (encodeField type body ++ after)).length before.length =
      some (⟨before.length, type, body.length, body⟩, 4 + body.length) := by
  have hlength : (before ++ (encodeField type body ++ after)).length =
      before.length + (4 + body.length) + after.length := by
    simp only [List.length_append, length_encodeField]
    omega
  have hdrop : (before ++ (encodeField type body ++ after)).drop before.length =
      encode16 type ++ (encode16 (4 + body.length) ++ (body ++ after)) := by
    simp only [List.drop_left, encodeField, List.append_assoc]
  have hdrop₂ : (before ++ (encodeField type body ++ after)).drop (before.length + 2) =
      encode16 (4 + body.length) ++ (body ++ after) := by
    rw [← List.drop_drop, hdrop]
    rfl
  have hdrop₄ : (before ++ (encodeField type body ++ after)).drop (before.length + 4) =
      body ++ after := by
    rw [show before.length + 4 = before.length + 2 + 2 from rfl, ← List.drop_drop, hdrop₂]
    rfl
  rw [parseSingleField, hlength, if_neg (by omega), hdrop, hdrop₂,
    decode16_encode16_of_lt (by omega)]
  dsimp only
  rw [if_neg (by omega), slice, hdrop₄, decode16_encode16_of_lt htype, Nat.add_sub_cancel_left,
    List.take_left]

end Chrony.Ntp
