import Chrony.Ntp.Packet

/-!
# Packets with Extension Fields

`NTP_Packet` is a buffer of a fixed size. Extension fields are written to the end of the data
in it by the functions of `ntp_ext.c`, which count them in the information about the packet.
A packet which was made in this way is parsed to the same fields, unless the data at its end
are as short as a MAC.

## Main results

* `Outgoing.addField_eq`: how the buffer and the information about it change together.
* `parsePacket_layout`: the fields of a packet as `parse_packet` counts them.
* `parse_added_fields`: what was added is what is parsed.
-/

namespace Chrony.Ntp

open Lib Bytes NtpCore

/-! ### The buffer -/

/-- `NTP_Packet`, with all of its bytes. -/
structure NtpPacket where
  bytes : List Byte
  length_bytes : bytes.length = maxPacketLength

/-- `memcpy` to a position in the packet. -/
def NtpPacket.write (packet : NtpPacket) (start : ℕ) (data : List Byte) : NtpPacket where
  bytes := overwrite packet.bytes start data
  length_bytes := (length_overwrite ..).trans packet.length_bytes

/-- A packet which is prepared for transmission, and the information about it. -/
structure Outgoing where
  packet : NtpPacket
  info : PacketInfo

/-- The data which were written to the packet. -/
def Outgoing.data (out : Outgoing) : List Byte := out.packet.bytes.take out.info.length

/-- `format_field`, in the buffer of a packet. The header is written before the caller checks
the length of the field. -/
def NtpPacket.formatField (packet : NtpPacket) (start type : ℕ) (bodyLength : ℤ) :
    Option NtpPacket :=
  if bodyLength < 0 ∨ !canFormatField maxPacketLength start bodyLength.toNat then none
  else some (packet.write start (encode16 type ++ encode16 (4 + bodyLength.toNat)))

/-- `NEF_AddBlankField`. It returns the position of the body, which is written by the
caller. -/
def Outgoing.addBlankField (out : Outgoing) (type : ℕ) (bodyLength : ℤ) :
    Outgoing × Option ℕ :=
  let length := out.info.length
  if length < ntpHeaderLength ∨ length ≥ maxPacketLength ∨ length % 4 ≠ 0 then (out, none)
  else if out.info.version ≠ 4 then (out, none)
  else
    match out.packet.formatField length type bodyLength with
    | none => (out, none)
    | some packet =>
        let efLength := 4 + bodyLength.toNat
        if efLength < ntpMinEfLength then ({ out with packet }, none)
        else
          ({ packet
             info := { out.info with
               length := length + efLength, extFields := out.info.extFields + 1 } },
            some (length + 4))

/-- `NEF_AddField`. -/
def Outgoing.addField (out : Outgoing) (type : ℕ) (body : List Byte) : Outgoing × Bool :=
  let r := out.addBlankField type body.length
  match r.2 with
  | none => (r.1, false)
  | some start => ({ r.1 with packet := r.1.packet.write start body }, true)

/-- **The fields which can be added**, by the length of the body. -/
structure PacketInfo.Accepts (info : PacketInfo) (bodyLength : ℕ) : Prop where
  header : ntpHeaderLength ≤ info.length
  aligned : info.length % 4 = 0
  version : info.version = 4
  body_aligned : bodyLength % 4 = 0
  min : ntpMinEfLength ≤ 4 + bodyLength
  fits : info.length + (4 + bodyLength) ≤ maxPacketLength

theorem canFormatField_iff {info : PacketInfo} {bodyLength : ℕ} (hmod : info.length % 4 = 0) :
    canFormatField maxPacketLength info.length bodyLength = true ↔
      bodyLength % 4 = 0 ∧ info.length + (4 + bodyLength) ≤ maxPacketLength := by
  have hlimit : maxPacketLength ≤ 0xffff := by decide
  rw [canFormatField]
  simp only [Bool.not_eq_true', decide_eq_false_iff_not]
  omega

/-- The information about a packet with another field. -/
def PacketInfo.withAdded (info : PacketInfo) (bodyLength : ℕ) : PacketInfo :=
  { info with length := info.length + (4 + bodyLength), extFields := info.extFields + 1 }

/-- **A field which can be added is added.** -/
theorem Outgoing.addBlankField_of_accepts {out : Outgoing} {bodyLength : ℕ}
    (h : out.info.Accepts bodyLength) (type : ℕ) :
    out.addBlankField type bodyLength =
      (⟨out.packet.write out.info.length (encode16 type ++ encode16 (4 + bodyLength)),
        out.info.withAdded bodyLength⟩, some (out.info.length + 4)) := by
  have hmin := h.min
  have hfits := h.fits
  have hheader := h.header
  have hformat : out.packet.formatField out.info.length type bodyLength =
      some (out.packet.write out.info.length (encode16 type ++ encode16 (4 + bodyLength))) := by
    rw [NtpPacket.formatField, Int.toNat_natCast, if_neg]
    rw [(canFormatField_iff h.aligned).mpr ⟨h.body_aligned, h.fits⟩]
    simp only [Bool.not_true, Bool.false_eq_true, or_false, not_lt]
    exact Int.natCast_nonneg _
  have haligned := h.aligned
  rw [Outgoing.addBlankField]
  dsimp only
  rw [if_neg (by omega), if_neg (not_not.mpr h.version), hformat]
  dsimp only
  rw [Int.toNat_natCast, if_neg (by omega)]
  rfl

/-- **A call which fails changes nothing that was written.** -/
theorem Outgoing.addBlankField_of_not_accepts {out : Outgoing} (bodyLength : ℤ)
    (h : ¬(0 ≤ bodyLength ∧ out.info.Accepts bodyLength.toNat)) (type : ℕ) :
    (out.addBlankField type bodyLength).2 = none ∧
      (out.addBlankField type bodyLength).1.info = out.info ∧
      (out.addBlankField type bodyLength).1.data = out.data := by
  unfold Outgoing.addBlankField
  dsimp only
  split
  · exact ⟨rfl, rfl, rfl⟩
  next hlength =>
      split
      · exact ⟨rfl, rfl, rfl⟩
      next hversion =>
          split
          · exact ⟨rfl, rfl, rfl⟩
          next packet hformat =>
              rw [NtpPacket.formatField] at hformat
              split at hformat
              · cases hformat
              next hcan =>
                  obtain rfl := Option.some.inj hformat
                  split
                  · exact ⟨rfl, rfl, take_overwrite (Nat.le_refl _)⟩
                  next hmin =>
                      rw [not_or, not_lt, Bool.not_eq_true', Bool.not_eq_false,
                        canFormatField_iff (by omega)] at hcan
                      exact absurd ⟨hcan.1, by omega, by omega, not_not.mp hversion, hcan.2.1,
                        by omega, hcan.2.2⟩ h

/-- `NEF_AddField` on the data of a packet, by the fields which can be added. -/
theorem addField_eq_none {packet : List Byte} {info : PacketInfo} {body : List Byte}
    (h : ¬info.Accepts body.length) (type : ℕ) : addField packet info type body = none := by
  rw [addField]
  split
  · rfl
  next hlength =>
      split
      · rfl
      next hversion =>
          split
          · rfl
          next hcan =>
              split
              · rfl
              next hmin =>
                  rw [Bool.not_eq_true', Bool.not_eq_false, canFormatField_iff (by omega)] at hcan
                  exact absurd ⟨by omega, by omega, not_not.mp hversion, hcan.1, by omega,
                    hcan.2⟩ h

/-- **The bytes of a field are written after the data**, by the header and the body. -/
theorem take_write_field (packet : NtpPacket) {start : ℕ} (type : ℕ) {body : List Byte}
    (h : start + (4 + body.length) ≤ maxPacketLength) :
    ((packet.write start (encode16 type ++ encode16 (4 + body.length))).write
      (start + 4) body).bytes.take (start + (4 + body.length)) =
        packet.bytes.take start ++ encodeField type body := by
  have hheader : (encode16 type ++ encode16 (4 + body.length)).length = 4 := rfl
  have hlength := packet.length_bytes
  have hwrite : (overwrite packet.bytes start
      (encode16 type ++ encode16 (4 + body.length))).take (start + 4) =
        packet.bytes.take start ++ (encode16 type ++ encode16 (4 + body.length)) := by
    rw [← hheader]
    exact take_overwrite_add (by omega)
  rw [NtpPacket.write, NtpPacket.write, ← Nat.add_assoc, take_overwrite_add, hwrite, encodeField,
    List.append_assoc, List.append_assoc]
  rw [length_overwrite]
  omega

/-- **The buffer and the information about it change together**, as `addField` says. A call
which fails leaves the information and the data as they were. -/
theorem Outgoing.addField_eq (out : Outgoing) (type : ℕ) (body : List Byte) :
    match Ntp.addField out.data out.info type body with
    | none => (out.addField type body).2 = false ∧ (out.addField type body).1.info = out.info ∧
        (out.addField type body).1.data = out.data
    | some r => (out.addField type body).2 = true ∧ (out.addField type body).1.info = r.2 ∧
        (out.addField type body).1.data = r.1 := by
  by_cases h : out.info.Accepts body.length
  · have hlength : out.data.length = out.info.length := by
      have hfits := h.fits
      rw [Outgoing.data, List.length_take, out.packet.length_bytes]
      omega
    rw [addField_of_le type h.version h.header h.aligned h.body_aligned
      (by have hmin := h.min; rw [ntpMinEfLength] at hmin; omega) h.fits]
    refine ⟨?_, ?_, ?_⟩
    · rw [Outgoing.addField, Outgoing.addBlankField_of_accepts h]
    · rw [Outgoing.addField, Outgoing.addBlankField_of_accepts h]
      rfl
    · rw [Outgoing.addField, Outgoing.addBlankField_of_accepts h]
      refine (take_write_field out.packet type h.fits).trans ?_
      rw [Outgoing.data, List.take_take, Nat.min_self]
  · obtain ⟨hnone, hinfo, hdata⟩ := Outgoing.addBlankField_of_not_accepts
      body.length (by rw [Int.toNat_natCast]; exact fun h' => h h'.2) type
    rw [addField_eq_none h]
    dsimp only
    rw [Outgoing.addField]
    dsimp only
    rw [hnone]
    exact ⟨rfl, hinfo, hdata⟩

/-! ### The fields of a packet -/

/-- A field to be added, by `NEF_AddField` or by `NEF_AddBlankField` and a copy of the body to
the returned position. -/
structure NewField where
  blank : Bool
  type : BitVec 16
  body : List Byte
  deriving DecidableEq, Repr

/-- The bytes of a field. -/
def NewField.encode (field : NewField) : List Byte := encodeField field.type.toNat field.body

/-- A field is added. -/
def Outgoing.add (out : Outgoing) (field : NewField) : Outgoing × Bool :=
  if field.blank then
    let r := out.addBlankField field.type.toNat field.body.length
    match r.2 with
    | none => (r.1, false)
    | some start => ({ r.1 with packet := r.1.packet.write start field.body }, true)
  else out.addField field.type.toNat field.body

theorem Outgoing.add_eq (out : Outgoing) (field : NewField) :
    out.add field = out.addField field.type.toNat field.body :=
  ite_id (out.addField field.type.toNat field.body)

/-- Fields are added until one of the calls fails. -/
def Outgoing.addFields (out : Outgoing) : List NewField → Outgoing × Bool
  | [] => (out, true)
  | field :: fields =>
      let r := out.add field
      if r.2 then r.1.addFields fields else r

/-- The fields as they are parsed, from a position. -/
def layout : ℕ → List NewField → List ExtField
  | _, [] => []
  | start, field :: fields =>
      ⟨start, field.type.toNat, field.body.length, field.body⟩ ::
        layout (start + (4 + field.body.length)) fields

theorem length_layout (start : ℕ) (fields : List NewField) :
    (layout start fields).length = fields.length := by
  induction fields generalizing start with
  | nil => rfl
  | cons field fields ih => rw [layout, List.length_cons, List.length_cons, ih]

/-- `parse_packet` distinguishes the last field from a MAC by the length of the remaining
data. -/
def Distinguishable (fields : List NewField) (mac : List Byte) : Prop :=
  ntpMinMacLength ≤ mac.length ∨ ∀ field ∈ fields.getLast?, 28 ≤ 4 + field.body.length

theorem Distinguishable.tail {field : NewField} {fields : List NewField} {mac : List Byte}
    (h : Distinguishable (field :: fields) mac) : Distinguishable fields mac := by
  refine h.imp id fun hlast last hmem => hlast last ?_
  rw [List.getLast?_cons, hmem]
  rfl

/-- Data with a field are longer than a MAC. -/
theorem Distinguishable.lt {field : NewField} {fields : List NewField} {mac : List Byte}
    (h : Distinguishable (field :: fields) mac)
    (hmin : ∀ f ∈ field :: fields, ntpMinEfLength ≤ 4 + f.body.length) :
    ntpMaxV4MacLength < ((field :: fields).flatMap NewField.encode ++ mac).length := by
  induction fields generalizing field with
  | nil =>
      have hfield := hmin field List.mem_cons_self
      have hlast := h.imp_right fun hlast => hlast field rfl
      rw [List.flatMap_singleton, List.length_append, NewField.encode, length_encodeField]
      rw [ntpMinEfLength] at hfield
      rw [ntpMinMacLength] at hlast
      rw [ntpMaxV4MacLength]
      omega
  | cons field' fields ih =>
      have hrest := ih h.tail fun f hf => hmin f (List.mem_cons_of_mem _ hf)
      rw [List.flatMap_cons, List.append_assoc, List.length_append]
      omega

/-- What is known after a field was added. -/
theorem Outgoing.add_true {out : Outgoing} {field : NewField} (h : (out.add field).2 = true) :
    out.info.Accepts field.body.length ∧
      (out.add field).1.info = out.info.withAdded field.body.length ∧
      (out.add field).1.data = out.data ++ field.encode := by
  have heq := out.addField_eq field.type.toNat field.body
  rw [Outgoing.add_eq] at h ⊢
  by_cases hcan : out.info.Accepts field.body.length
  · rw [addField_of_le _ hcan.version hcan.header hcan.aligned hcan.body_aligned
      (by have hmin := hcan.min; rw [ntpMinEfLength] at hmin; omega) hcan.fits] at heq
    refine ⟨hcan, heq.2.1, heq.2.2.trans ?_⟩
    rw [Outgoing.data, List.take_take, Nat.min_self]
    rfl
  · rw [addField_eq_none hcan] at heq
    cases h.symm.trans heq.1

/-- **No byte that was written is changed**, and a call which fails does not change the
information. -/
theorem Outgoing.add_keeps (out : Outgoing) (field : NewField) :
    (out.add field).1.packet.bytes.take out.info.length = out.data ∧
      ((out.add field).2 = false → (out.add field).1.info = out.info) := by
  have heq := out.addField_eq field.type.toNat field.body
  rw [Outgoing.add_eq]
  by_cases hcan : out.info.Accepts field.body.length
  · rw [Outgoing.addField, Outgoing.addBlankField_of_accepts hcan]
    refine ⟨?_, nofun⟩
    exact (take_overwrite (Nat.le_add_right _ _)).trans (take_overwrite (Nat.le_refl _))
  · rw [addField_eq_none hcan] at heq
    obtain ⟨-, hinfo, hdata⟩ := heq
    rw [Outgoing.data, hinfo] at hdata
    exact ⟨hdata, fun _ => hinfo⟩

/-- **What is known after all fields were added.** -/
theorem Outgoing.addFields_true {out out' : Outgoing} {fields : List NewField}
    (h : out.addFields fields = (out', true)) :
    out'.data = out.data ++ fields.flatMap NewField.encode ∧
      out'.info.length = out.info.length + (fields.flatMap NewField.encode).length ∧
      out'.info.extFields = out.info.extFields + fields.length ∧
      (out.info.length ≤ maxPacketLength → out'.info.length ≤ maxPacketLength) ∧
      ∀ f ∈ fields, f.body.length % 4 = 0 ∧ ntpMinEfLength ≤ 4 + f.body.length := by
  induction fields generalizing out with
  | nil =>
      obtain ⟨rfl, -⟩ := Prod.mk.inj h
      exact ⟨(List.append_nil _).symm, rfl, rfl, id, nofun⟩
  | cons field fields ih =>
      rw [Outgoing.addFields] at h
      split at h
      next hadd =>
          obtain ⟨hcan, hinfo, hdata⟩ := Outgoing.add_true hadd
          obtain ⟨hdata', hlength, hcount, hmax, hfields⟩ := ih h
          have hencode : field.encode.length = 4 + field.body.length := length_encodeField ..
          rw [hinfo] at hlength hcount hmax
          refine ⟨?_, ?_, ?_, ?_, ?_⟩
          · rw [hdata', hdata, List.flatMap_cons, List.append_assoc]
          · rw [hlength, List.flatMap_cons, List.length_append, hencode, ← Nat.add_assoc]
            rfl
          · rw [hcount, List.length_cons]
            change out.info.extFields + 1 + fields.length = _
            omega
          · exact fun _ => hmax hcan.fits
          · exact List.forall_mem_cons.mpr ⟨⟨hcan.body_aligned, hcan.min⟩, hfields⟩
      next hadd =>
          rw [h] at hadd
          exact absurd rfl hadd

/-- The fields of a packet are aligned. -/
theorem length_fields_mod {fields : List NewField} (h : ∀ f ∈ fields, f.body.length % 4 = 0) :
    (fields.flatMap NewField.encode).length % 4 = 0 := by
  induction fields with
  | nil => rfl
  | cons field fields ih =>
      obtain ⟨hbody, hfields⟩ := List.forall_mem_cons.mp h
      have hrest := ih hfields
      rw [List.flatMap_cons, List.length_append, NewField.encode, length_encodeField]
      omega

/-- The first byte of a packet is in its data. -/
theorem Outgoing.headD_data {out : Outgoing} (h : 0 < out.info.length) (after : List Byte) :
    (out.data ++ after).headD 0 = out.packet.bytes.headD 0 := by
  obtain ⟨n, hn⟩ := Nat.exists_eq_add_of_lt h
  rw [Outgoing.data, hn]
  cases hbytes : out.packet.bytes with
  | nil =>
      have hlength := out.packet.length_bytes
      rw [hbytes] at hlength
      cases hlength
  | cons b bytes => rfl

/-- **A field is parsed where it was written.** -/
theorem parseField_encode {data before after : List Byte} {field : NewField}
    (hdata : data = before ++ (field.encode ++ after)) (hheader : ntpHeaderLength ≤ before.length)
    (hbefore : before.length % 4 = 0) (hversion : lvmToVersion (data.headD 0) = 4)
    (hmax : data.length ≤ maxPacketLength) (hmod : data.length % 4 = 0)
    (hbody : field.body.length % 4 = 0) (hmin : ntpMinEfLength ≤ 4 + field.body.length)
    (hlong : ntpMaxV4MacLength < (field.encode ++ after).length) :
    parseField data data.length before.length =
      some (⟨before.length, field.type.toNat, field.body.length, field.body⟩,
        4 + field.body.length) := by
  have hlength : data.length = before.length + (field.encode ++ after).length := by
    rw [hdata, List.length_append]
  have hencode : (field.encode ++ after).length = 4 + field.body.length + after.length := by
    rw [List.length_append, NewField.encode, length_encodeField]
  have hlimit : maxPacketLength ≤ 0xffff := by decide
  have htype : field.type.toNat < 65536 := field.type.isLt
  have hparse := parseSingleField_encodeField htype hbody (by omega) before after
  rw [← NewField.encode, ← hdata] at hparse
  rw [parseField, if_neg (by omega), if_neg (not_not.mpr hversion), if_neg (by omega), hparse]
  dsimp only
  rw [if_neg (by omega)]

/-- **The fields of a packet** are read one after another up to the MAC. -/
theorem scan_layout {data before mac : List Byte} {fields : List NewField}
    (hdata : data = before ++ (fields.flatMap NewField.encode ++ mac))
    (hheader : ntpHeaderLength ≤ before.length) (hbefore : before.length % 4 = 0)
    (hversion : lvmToVersion (data.headD 0) = 4) (hmax : data.length ≤ maxPacketLength)
    (hmod : data.length % 4 = 0)
    (hfields : ∀ f ∈ fields, f.body.length % 4 = 0 ∧ ntpMinEfLength ≤ 4 + f.body.length)
    (hend : Distinguishable fields mac) :
    Scan (parseField data data.length) before.length (layout before.length fields)
      (before.length + (fields.flatMap NewField.encode).length) := by
  induction fields generalizing before with
  | nil => exact .nil _
  | cons field fields ih =>
      have hlong := hend.lt fun f hf => (hfields f hf).2
      obtain ⟨⟨hbody, hmin⟩, hfields⟩ := List.forall_mem_cons.mp hfields
      rw [List.flatMap_cons, List.append_assoc] at hdata hlong
      have hencode : field.encode.length = 4 + field.body.length := length_encodeField ..
      refine .cons (parseField_encode hdata hheader hbefore hversion hmax hmod hbody hmin hlong) ?_
      have hsplit : data = before ++ field.encode ++ (fields.flatMap NewField.encode ++ mac) := by
        rw [hdata, List.append_assoc]
      have hrest := ih hsplit (by rw [List.length_append]; omega)
        (by rw [List.length_append, hencode]; omega) hfields hend.tail
      rw [List.length_append, hencode] at hrest
      rw [List.flatMap_cons, List.length_append, hencode,
        ← Nat.add_assoc before.length (4 + field.body.length)]
      exact hrest

/-- **The loop of `parse_packet` over fields which can be read.** -/
theorem parseFields_of_scan {packet : List Byte} {fuel parsed stop : ℕ} {info : PacketInfo}
    {fields : List ExtField} (h : Scan (parseField packet info.length) parsed fields stop)
    (hstop : info.length - stop = 0 ∨
      (ntpMinMacLength ≤ info.length - stop ∧ info.length - stop ≤ ntpMaxV4MacLength))
    (hfuel : fields.length < fuel) :
    ∃ info', parseFields packet fuel info parsed = .ok (info', stop) ∧
      info'.length = info.length ∧ info'.version = info.version ∧
      info'.extFields = info.extFields + fields.length := by
  generalize hlength : info.length = length at h hstop
  induction h generalizing info fuel with
  | nil p =>
      obtain ⟨fuel, rfl⟩ : ∃ n, fuel = n + 1 := ⟨fuel - 1, by omega⟩
      refine ⟨info, ?_, hlength, rfl, rfl⟩
      rw [parseFields, hlength, if_neg]
      omega
  | @cons p q n field fields hfield _ ih =>
      obtain ⟨fuel, rfl⟩ : ∃ n, fuel = n + 1 := ⟨fuel - 1, by omega⟩
      obtain ⟨hcount, hlength', hversion, -⟩ := withField_eq info field
      obtain ⟨info', hparse, hsame, hversion', hcount'⟩ := ih (Nat.lt_of_succ_lt_succ hfuel)
        (hlength'.trans hlength) hstop
      have hbounds := parseField_bounds hfield
      refine ⟨info', ?_, hsame, hversion'.trans hversion, ?_⟩
      · have hrem : length - p > 0 ∧
            ¬(length - p ≥ ntpMinMacLength ∧ length - p ≤ ntpMaxV4MacLength) := by
          rw [ntpMaxV4MacLength]
          omega
        rw [parseFields, hlength, if_pos hrem, hfield]
        exact hparse
      · rw [hcount', hcount, List.length_cons]
        omega

theorem parseNewPacket_of_scan {data : List Byte} {fields : List ExtField} {stop : ℕ}
    (hscan : Scan (parseField data data.length) ntpHeaderLength fields stop)
    (hle : stop ≤ data.length) (hlt : ntpHeaderLength + 4 < data.length)
    (hstop : data.length - stop = 0 ∨
      (ntpMinMacLength ≤ data.length - stop ∧ data.length - stop ≤ ntpMaxV4MacLength)) :
    ∃ info, parseNewPacket data (headerInfo data) = .ok info ∧ info.length = data.length ∧
      info.version = (headerInfo data).version ∧ info.extFields = fields.length ∧
      (stop < data.length → info.authMode = .symmetric ∧ info.mac = some (macFrom data stop)) := by
  have hcount : fields.length ≤ stop - ntpHeaderLength := by
    refine hscan.length_le fun p field n hfield => ?_
    have hbounds := parseField_bounds hfield
    omega
  have hscan' : Scan (parseField data (headerInfo data).length) ntpHeaderLength fields stop := hscan
  obtain ⟨info, hparse, hsame, hversion, hextFields⟩ := parseFields_of_scan hscan' hstop
    (show fields.length < data.length by rw [ntpHeaderLength] at hcount hlt; omega)
  have hzero : (headerInfo data).extFields = 0 := rfl
  rw [hzero, Nat.zero_add] at hextFields
  rw [parseNewPacket, if_neg (by omega), hparse]
  change ∃ info', (if data.length - stop = 0 then Except.ok info
    else if data.length - stop ≥ ntpMinMacLength then
      Except.ok { info with authMode := .symmetric, mac := some (macFrom data stop) }
    else Except.error ParseError.format) = .ok info' ∧ info'.length = data.length ∧
      info'.version = (headerInfo data).version ∧ info'.extFields = fields.length ∧
      (stop < data.length → info'.authMode = .symmetric ∧ info'.mac = some (macFrom data stop))
  rcases hstop with hzero | ⟨hmin, -⟩
  · rw [if_pos hzero]
    exact ⟨info, rfl, hsame, hversion, hextFields, fun hlt => absurd hzero (by omega)⟩
  · rw [ntpMinMacLength] at hmin ⊢
    rw [if_neg (by omega), if_pos hmin]
    exact ⟨_, rfl, hsame, hversion, hextFields, fun _ => ⟨rfl, rfl⟩⟩

/-- **A packet with fields is accepted**, they are counted, and what follows them is the
MAC. -/
theorem parsePacket_layout {data before mac : List Byte} {fields : List NewField}
    (hdata : data = before ++ (fields.flatMap NewField.encode ++ mac))
    (hheader : before.length = ntpHeaderLength)
    (hversion : lvmToVersion (data.headD 0) = 4) (hmax : data.length ≤ maxPacketLength)
    (hmod : data.length % 4 = 0)
    (hfields : ∀ f ∈ fields, f.body.length % 4 = 0 ∧ ntpMinEfLength ≤ 4 + f.body.length)
    (hend : Distinguishable fields mac)
    (hmac : mac = [] ∨ (ntpMinMacLength ≤ mac.length ∧ mac.length ≤ ntpMaxV4MacLength)) :
    ∃ info, parsePacket data = .ok info ∧ info.length = data.length ∧ info.version = 4 ∧
      info.extFields = fields.length ∧ (mac ≠ [] → info.authMode = .symmetric ∧
        info.mac = some (macFrom data (data.length - mac.length))) := by
  have hlength : data.length =
      ntpHeaderLength + ((fields.flatMap NewField.encode).length + mac.length) := by
    rw [hdata, List.length_append, List.length_append, hheader]
  have hversion' : (headerInfo data).version = 4 := hversion
  rw [parsePacket, if_neg (by omega)]
  dsimp only
  rw [hversion', if_neg (by decide)]
  by_cases hempty : fields = [] ∧ mac = []
  · obtain ⟨rfl, rfl⟩ := hempty
    rw [if_pos (by rw [hlength]; rfl)]
    exact ⟨_, rfl, rfl, hversion', rfl, fun hne => absurd rfl hne⟩
  · have hlong : 4 < (fields.flatMap NewField.encode).length + mac.length := by
      rcases fields with _ | ⟨field, fields⟩
      · have hmin := (hmac.resolve_left fun h => hempty ⟨rfl, h⟩).1
        rw [ntpMinMacLength] at hmin
        omega
      · have hlt := hend.lt fun f hf => (hfields f hf).2
        rw [List.length_append, ntpMaxV4MacLength] at hlt
        omega
    rw [if_neg (by omega), if_neg (by decide)]
    have hscan := scan_layout hdata hheader.ge (by rw [hheader]; rfl) hversion hmax hmod hfields
      hend
    rw [hheader] at hscan
    obtain ⟨info, hparse, hsame, hinfo, hcount, hauth⟩ :=
      parseNewPacket_of_scan hscan (by omega) (by omega) (by
        rcases hmac with rfl | hmac
        · rw [List.length_nil] at hlength
          omega
        · omega)
    refine ⟨info, hparse, hsame, hinfo.trans hversion', hcount.trans (length_layout ..), ?_⟩
    intro hne
    have hpos := List.length_pos_of_ne_nil hne
    have hstop : data.length - mac.length =
        ntpHeaderLength + (fields.flatMap NewField.encode).length := by omega
    rw [hstop]
    exact hauth (by omega)

/-- A MAC is written after the data. -/
def Outgoing.appendMac (out : Outgoing) (mac : List Byte) : Outgoing where
  packet := out.packet.write out.info.length mac
  info := { out.info with length := out.info.length + mac.length }

theorem Outgoing.data_appendMac {out : Outgoing} {mac : List Byte}
    (h : out.info.length + mac.length ≤ maxPacketLength) :
    (out.appendMac mac).data = out.data ++ mac :=
  take_overwrite_add (h.trans_eq out.packet.length_bytes.symm)

/-- **What was added is what is parsed.** A packet with fields, of which the last one is at
least 28 bytes long or is followed by a MAC, is accepted with all of its fields. No byte that
was written is changed by adding of a field, and if the field cannot be added, the information
about the packet is not changed. -/
theorem parse_added_fields :
    (∀ (out out' : Outgoing) (fields : List NewField) (mac : List Byte),
      out.info.length = ntpHeaderLength → lvmToVersion (out.packet.bytes.headD 0) = 4 →
      out.addFields fields = (out', true) →
      out'.info.length + mac.length ≤ maxPacketLength →
      ((mac = [] ∧ ∀ field ∈ fields.getLast?, 28 ≤ 4 + field.body.length) ∨
        (20 ≤ mac.length ∧ mac.length ≤ 24 ∧ mac.length % 4 = 0)) →
      let data := (out'.appendMac mac).data
      ∃ info stop, parsePacket data = .ok info ∧ info.extFields = fields.length ∧
        Scan (parseField data info.length) ntpHeaderLength (layout ntpHeaderLength fields) stop ∧
        parseField data info.length stop = none) ∧
    ∀ (out : Outgoing) (field : NewField),
      (out.add field).1.packet.bytes.take out.info.length = out.data ∧
      ((out.add field).2 = false → (out.add field).1.info = out.info) := by
  refine ⟨?_, Outgoing.add_keeps⟩
  intro out out' fields mac hlength hversion hadd hmax hend data
  obtain ⟨hdata, hlength', -, -, hfields⟩ := Outgoing.addFields_true hadd
  have hheader : out.data.length = ntpHeaderLength := by
    rw [Outgoing.data, List.length_take, out.packet.length_bytes, hlength]
    decide
  have hbytes : data = out.data ++ (fields.flatMap NewField.encode ++ mac) := by
    rw [← List.append_assoc, ← hdata]
    exact Outgoing.data_appendMac hmax
  have hsize : data.length =
      ntpHeaderLength + ((fields.flatMap NewField.encode).length + mac.length) := by
    rw [hbytes, List.length_append, List.length_append, hheader]
  have hhead : data.headD 0 = out.packet.bytes.headD 0 := by
    rw [hbytes]
    exact Outgoing.headD_data (hlength ▸ (by decide)) _
  have hmod : data.length % 4 = 0 := by
    have hfields := length_fields_mod fun f hf => (hfields f hf).1
    rw [hsize, ntpHeaderLength]
    rcases hend with ⟨rfl, -⟩ | ⟨-, -, hmac⟩
    · rw [List.length_nil]
      omega
    · omega
  rw [← hhead] at hversion
  have hdist : Distinguishable fields mac :=
    hend.symm.imp (fun h => h.1) (fun h => h.2)
  have hmac : mac = [] ∨ (ntpMinMacLength ≤ mac.length ∧ mac.length ≤ ntpMaxV4MacLength) :=
    hend.imp (fun h => h.1) fun h => ⟨h.1, h.2.1⟩
  obtain ⟨info, hparse, hinfo, -, hcount, -⟩ := parsePacket_layout hbytes hheader hversion
    (by omega) hmod hfields hdist hmac
  have hscan := scan_layout hbytes hheader.ge (by rw [hheader]; rfl) hversion (by omega) hmod
    hfields hdist
  rw [hheader] at hscan
  refine ⟨info, _, hparse, hcount, hinfo.symm ▸ hscan, ?_⟩
  rw [hinfo]
  refine parseField_eq_none ?_
  rw [hsize, ntpMaxV4MacLength]
  rcases hend with ⟨rfl, -⟩ | ⟨-, hle, -⟩
  · rw [List.length_nil]
    omega
  · omega

/-- A packet with the header of an NTPv4 request. -/
def sampleOutgoing : Outgoing where
  packet := ⟨0x23#8 :: List.replicate 1139 0, by rw [List.length_cons, List.length_replicate]; rfl⟩
  info := ⟨ntpHeaderLength, 4, .client, 0, 0, .none, none⟩

/-- A field of the minimum length for the last one. -/
def sampleField : NewField := ⟨false, 0x2005, List.replicate 24 7⟩

theorem sampleOutgoing_addFields :
    sampleOutgoing.addFields [sampleField] = ((sampleOutgoing.addFields [sampleField]).1, true) :=
  Prod.ext rfl (by decide +kernel)

theorem parse_added_fields_sample :
    ∃ info stop, parsePacket
        (((sampleOutgoing.addFields [sampleField]).1.appendMac []).data) = .ok info ∧
      info.extFields = 1 ∧
      Scan (parseField (((sampleOutgoing.addFields [sampleField]).1.appendMac []).data) info.length)
        ntpHeaderLength [⟨48, 0x2005, 24, List.replicate 24 7⟩] stop ∧
      parseField (((sampleOutgoing.addFields [sampleField]).1.appendMac []).data) info.length stop =
        none := by
  refine parse_added_fields.1 sampleOutgoing _ [sampleField] [] rfl rfl sampleOutgoing_addFields
    (by decide +kernel) (.inl ⟨rfl, ?_⟩)
  rintro field ⟨⟩
  decide

/-- **A MAC which is not aligned** makes a packet which is not accepted, also if its length is
between those of the shortest and the longest MAC. -/
theorem parse_added_fields_unaligned : ∃ out' mac,
    sampleOutgoing.addFields [sampleField] = (out', true) ∧
    20 ≤ mac.length ∧ mac.length ≤ 24 ∧ out'.info.length + mac.length ≤ maxPacketLength ∧
    parsePacket (out'.appendMac mac).data = .error .length := by
  refine ⟨_, List.replicate 21 0, sampleOutgoing_addFields, by decide, by decide,
    by decide +kernel, ?_⟩
  rw [parsePacket, if_pos]
  decide +kernel

end Chrony.Ntp
