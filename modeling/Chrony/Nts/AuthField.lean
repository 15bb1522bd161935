import Mathlib.Order.Bounds.Defs
import Chrony.Ntp.Buffer
import Chrony.Nts.Auth

/-!
# The Authenticator in a Packet

Where the nonce and the ciphertext of an authenticator are in a packet, and how the field is
made in the buffer of the packet. `NNA_DecryptAuthEF` compares the two lengths in the field
with the length of its body, but they are the lengths of what is after a header of four bytes.
The check of the minimum padding includes the header, which is enough for nonces up to the
minimum length.

## Main results

* `authRange_within_iff`: which fields make the code read after their end.
* `decryptAuthEF_generateAuthField`: a field which was generated is decrypted, and no shorter
  field could be used.
-/

namespace Chrony.Nts

open Lib Bytes Ntp

/-! ### The positions of the nonce and the ciphertext -/

/-- The arguments of `SIV_Decrypt` which point to the packet, and the lengths of the data. -/
structure AuthRange where
  nonce : ℕ
  nonceLength : ℕ
  ciphertext : ℕ
  ciphertextLength : ℕ
  deriving DecidableEq, Repr

/-- `NNA_DecryptAuthEF` up to the call of `SIV_Decrypt`. -/
def authRange (algorithm : SivAlgorithm) (packet : List Byte) (info : PacketInfo)
    (efStart bufferLength : ℕ) : Option AuthRange :=
  match parseField packet info.length efStart with
  | none => none
  | some (field, _) =>
      if field.type ≠ ntpEfNtsAuthAndEef ∨ field.bodyLength < 4 then none
      else
        let nonceLength := decode16 field.body
        let ciphertextLength := decode16 (field.body.drop 2)
        if getPaddedLength nonceLength + getPaddedLength ciphertextLength > field.bodyLength then
          none
        else if nonceLength < 1 ∨ ciphertextLength < sivTagLength ∨
            ciphertextLength - sivTagLength > bufferLength then none
        else if 4 + min ntsMinUnpaddedNonceLength (sivMaxNonceLength algorithm) +
            getPaddedLength ciphertextLength > field.bodyLength then none
        else
          let nonce := efStart + 8
          some ⟨nonce, nonceLength, nonce + getPaddedLength nonceLength, ciphertextLength⟩

/-- The nonce and the ciphertext are the data at these positions. -/
theorem readAuthEF_eq (algorithm : SivAlgorithm) (packet : List Byte) (info : PacketInfo)
    (efStart bufferLength : ℕ) :
    readAuthEF algorithm packet info efStart bufferLength =
      (authRange algorithm packet info efStart bufferLength).map fun range =>
        ⟨slice packet range.nonce range.nonceLength,
          slice packet range.ciphertext range.ciphertextLength⟩ := by
  unfold readAuthEF authRange
  cases parseField packet info.length efStart with
  | none => rfl
  | some r =>
      dsimp only
      split_ifs
      all_goals rfl

/-- All data are between two positions. -/
def AuthRange.Within (range : AuthRange) (start stop : ℕ) : Prop :=
  start ≤ range.nonce ∧ range.nonce + range.nonceLength ≤ stop ∧
    start ≤ range.ciphertext ∧ range.ciphertext + range.ciphertextLength ≤ stop

/-- **The authenticators with no space for their header**: the padded lengths of the nonce and
the ciphertext are together as long as the body of the field. The nonce is longer than the
minimum, and the ciphertext has a length which is accepted. -/
def Overrun (algorithm : SivAlgorithm) (bufferLength : ℕ) (field : ExtField) : Prop :=
  let nonceLength := decode16 field.body
  let ciphertextLength := decode16 (field.body.drop 2)
  field.type = ntpEfNtsAuthAndEef ∧
    getPaddedLength nonceLength + getPaddedLength ciphertextLength = field.bodyLength ∧
    min ntsMinUnpaddedNonceLength (sivMaxNonceLength algorithm) < nonceLength ∧
    sivTagLength ≤ ciphertextLength ∧ ciphertextLength ≤ sivTagLength + bufferLength

theorem getPaddedLength_spec (length : ℕ) :
    length ≤ getPaddedLength length ∧ getPaddedLength length < length + 4 ∧
      getPaddedLength length % 4 = 0 := by
  rw [getPaddedLength, getPaddingLength]
  split
  · omega
  · omega

theorem minNonceLength_eq (algorithm : SivAlgorithm) :
    min ntsMinUnpaddedNonceLength (sivMaxNonceLength algorithm) = 16 ∨
      min ntsMinUnpaddedNonceLength (sivMaxNonceLength algorithm) = 12 := by
  cases algorithm with
  | aes128GcmSiv => exact .inr rfl
  | invalid => exact .inl rfl
  | aesSivCmac256 => exact .inl rfl
  | aesSivCmac384 => exact .inl rfl
  | aesSivCmac512 => exact .inl rfl
  | aes256GcmSiv => exact .inl rfl

/-- What `NNA_DecryptAuthEF` knows of a field before the decryption. -/
theorem authRange_eq_some {algorithm : SivAlgorithm} {packet : List Byte} {info : PacketInfo}
    {efStart bufferLength n : ℕ} {field : ExtField}
    (hfield : parseField packet info.length efStart = some (field, n)) (range : AuthRange) :
    authRange algorithm packet info efStart bufferLength = some range ↔
      field.type = ntpEfNtsAuthAndEef ∧
      getPaddedLength range.nonceLength + getPaddedLength range.ciphertextLength ≤
        field.bodyLength ∧
      4 + min ntsMinUnpaddedNonceLength (sivMaxNonceLength algorithm) +
        getPaddedLength range.ciphertextLength ≤ field.bodyLength ∧
      1 ≤ range.nonceLength ∧ sivTagLength ≤ range.ciphertextLength ∧
      range.ciphertextLength ≤ sivTagLength + bufferLength ∧
      range = ⟨efStart + 8, decode16 field.body,
        efStart + 8 + getPaddedLength (decode16 field.body), decode16 (field.body.drop 2)⟩ := by
  have hbounds := parseField_bounds hfield
  rw [authRange, hfield]
  dsimp only
  constructor
  · intro h
    split at h
    · cases h
    next htype =>
        split at h
        · cases h
        next hsum =>
            split at h
            · cases h
            next hlengths =>
                split at h
                · cases h
                next hpadding =>
                    obtain rfl := Option.some.inj h
                    dsimp only
                    exact ⟨not_not.mp fun h => htype (.inl h), by omega, by omega, by omega,
                      by omega, by omega, rfl⟩
  · rintro ⟨htype, hsum, hpadding, hnonce, hmin, hmax, rfl⟩
    dsimp only at hsum hpadding hnonce hmin hmax
    rw [if_neg (by rw [htype]; omega), if_neg (by omega), if_neg (by omega), if_neg (by omega)]

/-- **Which fields make the code read after their end.** The nonce and the ciphertext are in
the body of the field, and in the packet, unless there is no space for the header in the
field. -/
theorem authRange_within_iff (algorithm : SivAlgorithm) (packet : List Byte) (info : PacketInfo)
    (efStart bufferLength : ℕ) :
    (∀ field n range, parseField packet info.length efStart = some (field, n) →
      authRange algorithm packet info efStart bufferLength = some range →
      range.Within (efStart + 4) (efStart + 4 + field.bodyLength) ∧
        range.Within 0 info.length) ↔
    ∀ field n, parseField packet info.length efStart = some (field, n) →
      ¬Overrun algorithm bufferLength field := by
  constructor
  · rintro h field n hfield ⟨htype, hsum, hnonce, hmin, hmax⟩
    have hpadded := getPaddedLength_spec (decode16 field.body)
    have hpadded' := getPaddedLength_spec (decode16 (field.body.drop 2))
    have hminimum := minNonceLength_eq algorithm
    have hrange : authRange algorithm packet info efStart bufferLength =
        some ⟨efStart + 8, decode16 field.body,
          efStart + 8 + getPaddedLength (decode16 field.body),
          decode16 (field.body.drop 2)⟩ := by
      rw [authRange_eq_some hfield]
      dsimp only
      exact ⟨htype, hsum.le, by omega, by omega, hmin, hmax, rfl⟩
    have hwithin := (h field n _ hfield hrange).1.2.2.2
    dsimp only at hwithin
    omega
  · intro h field n range hfield hrange
    have hbounds := parseField_bounds hfield
    obtain ⟨htype, hsum, hpadding, hnonce, hmin, hmax, rfl⟩ :=
      (authRange_eq_some hfield range).mp hrange
    have hpadded := getPaddedLength_spec (decode16 field.body)
    have hpadded' := getPaddedLength_spec (decode16 (field.body.drop 2))
    have hminimum := minNonceLength_eq algorithm
    dsimp only at hsum hpadding hnonce hmin hmax
    have hspace : 4 + getPaddedLength (decode16 field.body) +
        getPaddedLength (decode16 (field.body.drop 2)) ≤ field.bodyLength := by
      by_contra hno
      refine h field n hfield ⟨htype, by omega, by omega, hmin, hmax⟩
    refine ⟨⟨?_, ?_, ?_, ?_⟩, ⟨?_, ?_, ?_, ?_⟩⟩
    all_goals
      dsimp only
      omega

/-- A request with an authenticator which has no space for its header. -/
def overrunPacket : List Byte :=
  0x23#8 :: List.replicate 47 0 ++
    encodeField ntpEfNtsAuthAndEef (encode16 20 ++ encode16 16 ++ List.replicate 32 0)

/-- **Four bytes after the packet** are read if the nonce is 20 bytes long. -/
theorem authRange_overrun : ∃ info field n range,
    parsePacket overrunPacket = .ok info ∧
    parseField overrunPacket info.length ntpHeaderLength = some (field, n) ∧
    authRange .aesSivCmac256 overrunPacket info ntpHeaderLength 0 = some range ∧
    ¬range.Within (ntpHeaderLength + 4) (ntpHeaderLength + 4 + field.bodyLength) ∧
    range.ciphertext + range.ciphertextLength = info.length + 4 := by
  refine ⟨⟨88, 4, .client, 1, 0, .nts, none⟩,
    ⟨48, ntpEfNtsAuthAndEef, 36, encode16 20 ++ encode16 16 ++ List.replicate 32 0⟩, 40,
    ⟨56, 20, 76, 16⟩, ?_, ?_, ?_, ?_, rfl⟩
  · decide +kernel
  · decide +kernel
  · decide +kernel
  · rintro ⟨-, -, -, hstop⟩
    exact absurd hstop (by decide)

/-! ### The field in the buffer -/

/-- The header of the body, the nonce and its padding are written. -/
def writeNonce (packet : NtpPacket) (header : ℕ) (lengths : AuthLengths) (nonce : List Byte) :
    NtpPacket :=
  let packet := packet.write header (encode16 lengths.nonce ++ encode16 lengths.ciphertext)
  let body := header + 4
  let packet := packet.write body nonce
  packet.write (body + lengths.nonce) (List.replicate (getPaddingLength lengths.nonce) 0)

/-- The ciphertext and the rest of the padding are written. -/
def writeCiphertext (packet : NtpPacket) (start : ℕ) (lengths : AuthLengths)
    (ciphertext : List Byte) : NtpPacket :=
  (packet.write start ciphertext).write (start + lengths.ciphertext)
    (List.replicate (getPaddingLength lengths.ciphertext + lengths.additionalPadding) 0)

/-- `NNA_GenerateAuthEF` in the buffer of a packet. The field is added before the encryption,
and it is removed if the encryption fails. -/
def generateAuthField (siv : Siv) (inst : SivInstance) (out : Outgoing)
    (nonce plaintext : List Byte) (minEfLength : ℤ) : Outgoing × Bool :=
  if nonce.length = 0 then (out, false)
  else
    let assocLength := out.info.length
    let lengths := authLengths inst.algorithm nonce.length plaintext.length minEfLength
    let r := out.addBlankField ntpEfNtsAuthAndEef lengths.total
    match r.2 with
    | none => (r.1, false)
    | some header =>
        let nonce := nonce.take lengths.nonce
        let packet := writeNonce r.1.packet header lengths nonce
        match siv.encryptWith inst nonce (packet.bytes.take assocLength) plaintext with
        | none =>
            ({ packet
               info := { r.1.info with
                 length := assocLength, extFields := r.1.info.extFields - 1 } }, false)
        | some ciphertext =>
            let start := header + 4 + getPaddedLength lengths.nonce
            ({ r.1 with packet := writeCiphertext packet start lengths ciphertext }, true)

/-- The bytes up to the end of what was written. -/
theorem take_write (packet : NtpPacket) {start stop : ℕ} {data : List Byte}
    (hstop : stop = start + data.length) (h : stop ≤ maxPacketLength) :
    (packet.write start data).bytes.take stop = packet.bytes.take start ++ data := by
  rw [hstop] at h ⊢
  exact take_overwrite_add (h.trans_eq packet.length_bytes.symm)

/-- The bytes before what was written. -/
theorem take_write_of_le (packet : NtpPacket) {start k : ℕ} (data : List Byte) (h : k ≤ start) :
    (packet.write start data).bytes.take k = packet.bytes.take k :=
  take_overwrite h

theorem take_writeNonce_of_le (packet : NtpPacket) {header k : ℕ} (lengths : AuthLengths)
    (nonce : List Byte) (h : k ≤ header) :
    (writeNonce packet header lengths nonce).bytes.take k = packet.bytes.take k := by
  rw [writeNonce, take_write_of_le _ _ (by omega), take_write_of_le _ _ (by omega),
    take_write_of_le _ _ h]

theorem take_writeNonce (packet : NtpPacket) {header stop : ℕ} {lengths : AuthLengths}
    {nonce : List Byte} (hnonce : nonce.length = lengths.nonce)
    (hstop : stop = header + 4 + getPaddedLength lengths.nonce) (h : stop ≤ maxPacketLength) :
    (writeNonce packet header lengths nonce).bytes.take stop =
      packet.bytes.take header ++ (encode16 lengths.nonce ++ encode16 lengths.ciphertext) ++
        nonce ++ List.replicate (getPaddingLength lengths.nonce) 0 := by
  rw [getPaddedLength] at hstop
  rw [writeNonce, take_write _ (by rw [List.length_replicate]; omega) h,
    take_write _ (by rw [hnonce]) (by omega), take_write _ (by rfl) (by omega)]

theorem take_writeCiphertext (packet : NtpPacket) {start stop : ℕ} {lengths : AuthLengths}
    {ciphertext : List Byte} (hciphertext : ciphertext.length = lengths.ciphertext)
    (hstop : stop = start + getPaddedLength lengths.ciphertext + lengths.additionalPadding)
    (h : stop ≤ maxPacketLength) :
    (writeCiphertext packet start lengths ciphertext).bytes.take stop =
      packet.bytes.take start ++ ciphertext ++ List.replicate
        (getPaddingLength lengths.ciphertext + lengths.additionalPadding) 0 := by
  rw [getPaddedLength] at hstop
  rw [writeCiphertext, take_write _ (by rw [List.length_replicate]; omega) h,
    take_write _ (by rw [hciphertext]) (by omega)]

/-- **The field is made in the buffer as it is made at the end of the data.** If it cannot be
made, the information about the packet and the data in it are as before. -/
theorem generateAuthField_eq (siv : Siv) (inst : SivInstance) (out : Outgoing)
    (nonce plaintext : List Byte) (minEfLength : ℤ) :
    match generateAuthEF siv inst out.data out.info nonce plaintext minEfLength with
    | none =>
        (generateAuthField siv inst out nonce plaintext minEfLength).2 = false ∧
        (generateAuthField siv inst out nonce plaintext minEfLength).1.info = out.info ∧
        (generateAuthField siv inst out nonce plaintext minEfLength).1.data = out.data
    | some r =>
        (generateAuthField siv inst out nonce plaintext minEfLength).2 = true ∧
        (generateAuthField siv inst out nonce plaintext minEfLength).1.info = r.2 ∧
        (generateAuthField siv inst out nonce plaintext minEfLength).1.data = r.1 := by
  have htake : out.data.take out.info.length = out.data := by
    rw [Outgoing.data, List.take_take, Nat.min_self]
  have hnonce := length_take_nonce inst.algorithm nonce plaintext.length minEfLength
  have hcipher : (authLengths inst.algorithm nonce.length plaintext.length minEfLength).ciphertext =
    sivTagLength + plaintext.length := rfl
  unfold generateAuthEF generateAuthField
  dsimp only
  generalize authLengths inst.algorithm nonce.length plaintext.length minEfLength = lengths
    at hnonce hcipher ⊢
  by_cases hempty : nonce.length = 0
  · rw [if_pos hempty, if_pos hempty]
    exact ⟨rfl, rfl, rfl⟩
  rw [if_neg hempty, if_neg hempty]
  by_cases hcan : out.info.Accepts lengths.total
  · have hfits := hcan.fits
    have hassoc : (writeNonce (out.packet.write out.info.length
        (encode16 ntpEfNtsAuthAndEef ++ encode16 (4 + lengths.total))) (out.info.length + 4)
        lengths (nonce.take lengths.nonce)).bytes.take out.info.length = out.data := by
      rw [take_writeNonce_of_le _ _ _ (by omega), take_write_of_le _ _ (Nat.le_refl _)]
      rfl
    rw [Outgoing.addBlankField_of_accepts hcan, htake]
    dsimp only
    rw [hassoc]
    cases hencrypt : siv.encryptWith inst (nonce.take lengths.nonce) out.data plaintext with
    | none => exact ⟨rfl, rfl, hassoc⟩
    | some ciphertext =>
        have hlength := (decryptWith_encryptWith hencrypt).2
        rw [Nat.add_comm, ← hcipher] at hlength
        have hbody := length_authBody hnonce hlength
        rw [← hbody] at hcan
        dsimp only
        rw [addField_of_le _ hcan.version hcan.header hcan.aligned hcan.body_aligned
          (by have hmin := hcan.min; rw [ntpMinEfLength] at hmin; omega) hcan.fits, hbody]
        refine ⟨rfl, rfl, ?_⟩
        rw [AuthLengths.total] at hfits
        refine (take_writeCiphertext _ hlength ?_ ?_).trans ?_
        · change out.info.length + (4 + lengths.total) = _
          rw [AuthLengths.total]
          omega
        · exact hcan.fits.trans_eq' (by rw [hbody]; rfl)
        · rw [take_writeNonce _ hnonce rfl (by omega), take_write _ (by rfl) (by omega), htake,
            encodeField, hbody, authBody]
          simp only [Outgoing.data, List.append_assoc]
  · have hnone : ∀ ciphertext : List Byte, ciphertext.length = lengths.ciphertext →
        addField out.data out.info ntpEfNtsAuthAndEef
          (authBody lengths (nonce.take lengths.nonce) ciphertext) = none := by
      intro ciphertext hlength
      refine addField_eq_none ?_ _
      rwa [length_authBody hnonce hlength]
    obtain ⟨hblank, hinfo, hdata⟩ := Outgoing.addBlankField_of_not_accepts lengths.total
      (fun h => hcan h.2) ntpEfNtsAuthAndEef
    rw [hblank]
    dsimp only
    cases hencrypt : siv.encryptWith inst (nonce.take lengths.nonce)
      (out.data.take out.info.length) plaintext with
    | none => exact ⟨rfl, hinfo, hdata⟩
    | some ciphertext =>
        have hlength := (decryptWith_encryptWith hencrypt).2
        dsimp only
        rw [hnone ciphertext (by rw [hlength, hcipher, Nat.add_comm])]
        exact ⟨rfl, hinfo, hdata⟩

/-! ### The round trip -/

/-- **The lengths of an authenticator which would do**: it is aligned, holds the header, the
padded nonce and the padded ciphertext, has the minimum padding of the nonce, and is not
shorter than the minimum length of the caller. -/
structure AuthLengthOk (algorithm : SivAlgorithm) (nonceLength ciphertextLength : ℕ)
    (minEfLength : ℤ) (efLength : ℕ) : Prop where
  aligned : efLength % 4 = 0
  holds : 4 + (4 + getPaddedLength nonceLength + getPaddedLength ciphertextLength) ≤ efLength
  padding : 4 + (4 + min ntsMinUnpaddedNonceLength (sivMaxNonceLength algorithm) +
    getPaddedLength ciphertextLength) ≤ efLength
  min : getPaddedMinLength minEfLength ≤ efLength

/-- **The field has the least length.** -/
theorem authLengths_isLeast (algorithm : SivAlgorithm) (maxNonceLength plaintextLength : ℕ)
    (minEfLength : ℤ) :
    let lengths := authLengths algorithm maxNonceLength plaintextLength minEfLength
    IsLeast {n | AuthLengthOk algorithm lengths.nonce lengths.ciphertext minEfLength n}
      (4 + lengths.total) := by
  intro lengths
  have hnonce := getPaddedLength_spec lengths.nonce
  have hcipher := getPaddedLength_spec lengths.ciphertext
  have hminimum := minNonceLength_eq algorithm
  have hmin : getPaddedMinLength minEfLength % 4 = 0 := by
    rw [getPaddedMinLength]
    split
    · omega
    · omega
  have hpadding : (lengths.additionalPadding : ℤ) =
      max (min ntsMinUnpaddedNonceLength (sivMaxNonceLength algorithm) -
        (getPaddedLength lengths.nonce : ℤ))
        (max (getPaddedMinLength minEfLength - (4 + getPaddedLength lengths.nonce +
          getPaddedLength lengths.ciphertext) - 4) 0) := by
    have hpadded : (getPaddedLength lengths.nonce : ℤ) =
        lengths.nonce + getPaddingLength lengths.nonce := rfl
    rw [hpadded, ← Int.sub_sub, ← hpadded]
    refine (Int.toNat_of_nonneg ?_).trans ?_
    · exact (le_max_right _ 0).trans (le_max_right _ _)
    · rfl
  have htotal : lengths.total = 4 + getPaddedLength lengths.nonce +
      getPaddedLength lengths.ciphertext + lengths.additionalPadding := rfl
  constructor
  · exact ⟨by omega, by omega, by omega, by omega⟩
  · rintro n ⟨haligned, hholds, hn, hmin'⟩
    omega

/-- The lengths, the nonce and the ciphertext are read back from the body of the field. -/
theorem slice_authBody (before : List Byte) {lengths : AuthLengths} {nonce ciphertext : List Byte}
    (hnonce : nonce.length = lengths.nonce) (hciphertext : ciphertext.length = lengths.ciphertext)
    (type : ℕ) :
    slice (before ++ encodeField type (authBody lengths nonce ciphertext))
      (before.length + 8) lengths.nonce = nonce ∧
    slice (before ++ encodeField type (authBody lengths nonce ciphertext))
      (before.length + 8 + getPaddedLength lengths.nonce) lengths.ciphertext = ciphertext := by
  let header := encode16 type ++ (encode16 (4 + (authBody lengths nonce ciphertext).length) ++
    (encode16 lengths.nonce ++ encode16 lengths.ciphertext))
  let padding := List.replicate (getPaddingLength lengths.nonce) (0 : Byte)
  let rest := List.replicate
    (getPaddingLength lengths.ciphertext + lengths.additionalPadding) (0 : Byte)
  have hheader : header.length = 8 := rfl
  have hbytes : before ++ encodeField type (authBody lengths nonce ciphertext) =
      before ++ header ++ (nonce ++ (padding ++ (ciphertext ++ rest))) := by
    simp only [encodeField, authBody, header, padding, rest, List.append_assoc]
  have hbytes' : before ++ encodeField type (authBody lengths nonce ciphertext) =
      before ++ header ++ nonce ++ padding ++ (ciphertext ++ rest) := by
    rw [hbytes]
    simp only [List.append_assoc]
  constructor
  · rw [hbytes, ← hnonce, ← hheader, ← List.length_append]
    exact slice_append _ _ _
  · have hlength : before.length + 8 + getPaddedLength lengths.nonce =
        (before ++ header ++ nonce ++ padding).length := by
      simp only [List.length_append, hheader, hnonce, padding, List.length_replicate,
        getPaddedLength]
      omega
    rw [hbytes', ← hciphertext, hlength]
    exact slice_append _ _ _

/-- **The authenticator is parsed where it was written.** -/
theorem parseField_authBody {packet body : List Byte} {info : PacketInfo}
    (hpacket : packet.length = info.length)
    (hversion : info.version = lvmToVersion (packet.headD 0))
    (hcan : info.Accepts body.length) (hlong : 24 ≤ body.length) :
    parseField (packet ++ encodeField ntpEfNtsAuthAndEef body)
      (info.length + (4 + body.length)) info.length =
        some (⟨info.length, ntpEfNtsAuthAndEef, body.length, body⟩, 4 + body.length) := by
  let field : NewField := ⟨false, 0x0404, body⟩
  let data := packet ++ encodeField ntpEfNtsAuthAndEef body
  have hdata : data = packet ++ (field.encode ++ []) := by
    rw [List.append_nil]
    rfl
  have hencode : field.encode.length = 4 + body.length := length_encodeField ..
  have hlength : data.length = info.length + (4 + body.length) := by
    rw [hdata, List.append_nil, List.length_append, hencode, hpacket]
  have hhead : data.headD 0 = packet.headD 0 := by
    have hheader := hcan.header
    cases packet with
    | nil =>
        rw [← hpacket] at hheader
        cases hheader
    | cons b packet => rfl
  have hfits := hcan.fits
  have haligned := hcan.aligned
  have hbody := hcan.body_aligned
  have hparse := parseField_encode hdata (hcan.header.trans_eq hpacket.symm)
    (hpacket ▸ haligned) (by rw [hhead, ← hversion]; exact hcan.version) (by omega) (by omega)
    hbody hcan.min (by rw [List.append_nil, hencode, ntpMaxV4MacLength]; omega)
  rw [hlength, hpacket] at hparse
  exact hparse

/-- A field is added only to a packet with a header and with space for it. -/
theorem length_of_addField {packet : List Byte} {info : PacketInfo} {type : ℕ} {body : List Byte}
    {r : List Byte × PacketInfo} (h : addField packet info type body = some r) :
    0 < info.length ∧ info.length ≤ maxPacketLength := by
  by_cases hcan : info.Accepts body.length
  · have hheader := hcan.header
    have hfits := hcan.fits
    rw [ntpHeaderLength] at hheader
    omega
  · rw [addField_eq_none hcan] at h
    cases h

/-- What is known of a field which was generated. -/
theorem generateAuthEF_cases {siv : Siv} {inst : SivInstance} {packet : List Byte}
    {info : PacketInfo} {nonce plaintext : List Byte} {minEfLength : ℤ}
    {r : List Byte × PacketInfo}
    (h : generateAuthEF siv inst packet info nonce plaintext minEfLength = some r) :
    let lengths := authLengths inst.algorithm nonce.length plaintext.length minEfLength
    nonce.length ≠ 0 ∧ ∃ ciphertext,
      siv.encryptWith inst (nonce.take lengths.nonce) (packet.take info.length) plaintext =
        some ciphertext ∧
      addField packet info ntpEfNtsAuthAndEef
        (authBody lengths (nonce.take lengths.nonce) ciphertext) = some r := by
  rw [generateAuthEF] at h
  split at h
  · cases h
  next hempty =>
      dsimp only at h
      split at h
      · cases h
      next ciphertext hencrypt => exact ⟨hempty, ciphertext, hencrypt, h⟩

/-- **A field which was generated is decrypted.** -/
theorem decryptAuthEF_of_generateAuthEF {siv : Siv} {inst : SivInstance} {packet : List Byte}
    {info : PacketInfo} {nonce plaintext : List Byte} {minEfLength : ℤ} {bufferLength : ℕ}
    {r : List Byte × PacketInfo} (hpacket : packet.length = info.length)
    (hversion : info.version = lvmToVersion (packet.headD 0))
    (h : generateAuthEF siv inst packet info nonce plaintext minEfLength = some r)
    (hbuffer : plaintext.length ≤ bufferLength) :
    decryptAuthEF siv inst r.1 r.2 info.length bufferLength = some plaintext := by
  obtain ⟨hempty, ciphertext, hencrypt, h⟩ := generateAuthEF_cases h
  obtain ⟨packet', info'⟩ := r
  have hleast := (authLengths_isLeast inst.algorithm nonce.length plaintext.length minEfLength).1
  have hnonce := length_take_nonce inst.algorithm nonce plaintext.length minEfLength
  have hcipher : (authLengths inst.algorithm nonce.length plaintext.length
    minEfLength).ciphertext = sivTagLength + plaintext.length := rfl
  have hpos : 1 ≤ (authLengths inst.algorithm nonce.length plaintext.length minEfLength).nonce := by
    have hmax : 12 ≤ sivMaxNonceLength inst.algorithm := by cases inst.algorithm <;> decide
    change 1 ≤ min nonce.length (sivMaxNonceLength inst.algorithm)
    omega
  generalize authLengths inst.algorithm nonce.length plaintext.length minEfLength = lengths
    at h hencrypt hnonce hcipher hleast hpos
  obtain ⟨hdecrypt, hlength⟩ := decryptWith_encryptWith hencrypt
  rw [Nat.add_comm, ← hcipher] at hlength
  have hbody := length_authBody hnonce hlength
  have htotal : lengths.total = 4 + getPaddedLength lengths.nonce +
      getPaddedLength lengths.ciphertext + lengths.additionalPadding := rfl
  generalize hdata : authBody lengths (nonce.take lengths.nonce) ciphertext = body
    at h hbody
  have hcan : info.Accepts body.length := by
    by_contra hno
    rw [addField_eq_none hno] at h
    cases h
  obtain ⟨rfl, rfl, -⟩ := addField_eq_some h
  have htake : packet.take info.length = packet := List.take_of_length_le hpacket.le
  have hfits := hcan.fits
  have hlimit : maxPacketLength < 65536 := by decide
  have hpadded := getPaddedLength_spec lengths.nonce
  have hpadded' := getPaddedLength_spec lengths.ciphertext
  have htag : sivTagLength = 16 := rfl
  rw [htake] at hdecrypt ⊢
  have hparse : parseField (packet ++ encodeField ntpEfNtsAuthAndEef body)
      (info.withAdded body.length).length info.length =
        some (⟨info.length, ntpEfNtsAuthAndEef, body.length, body⟩, 4 + body.length) :=
    parseField_authBody hpacket hversion hcan (by omega)
  have hdecode : decode16 body = lengths.nonce := by
    rw [← hdata, authBody, List.append_assoc, List.append_assoc, List.append_assoc,
      List.append_assoc, decode16_encode16_of_lt (by omega)]
  have hdecode' : decode16 (body.drop 2) = lengths.ciphertext := by
    rw [← hdata, authBody, List.append_assoc, List.append_assoc, List.append_assoc,
      List.append_assoc]
    exact decode16_encode16_of_lt (by omega) _
  have hrange : authRange inst.algorithm (packet ++ encodeField ntpEfNtsAuthAndEef body)
      (info.withAdded body.length) info.length bufferLength =
        some ⟨info.length + 8, lengths.nonce,
          info.length + 8 + getPaddedLength lengths.nonce, lengths.ciphertext⟩ := by
    have hpadding := hleast.padding
    rw [authRange_eq_some hparse, hdecode, hdecode']
    dsimp only
    exact ⟨rfl, by omega, by omega, hpos, by omega, by omega, rfl⟩
  obtain ⟨hslice, hslice'⟩ := slice_authBody packet hnonce hlength
    ntpEfNtsAuthAndEef
  rw [hdata, hpacket] at hslice hslice'
  have hread : readAuthEF inst.algorithm (packet ++ encodeField ntpEfNtsAuthAndEef body)
      (info.withAdded body.length) info.length bufferLength =
        some ⟨nonce.take lengths.nonce, ciphertext⟩ := by
    rw [readAuthEF_eq, hrange, Option.map_some, hslice, hslice']
  have hassoc : (packet ++ encodeField ntpEfNtsAuthAndEef body).take info.length = packet := by
    rw [← hpacket, List.take_left]
  change decryptAuthEF siv inst _ (info.withAdded body.length) _ _ = _
  rw [decryptAuthEF, hread]
  dsimp only
  rw [hassoc, hdecrypt]

/-- **The round trip of the authenticator.** A field which was generated in a packet is
decrypted to the plaintext, and it has the least length it could have. If the field cannot be
generated, the information about the packet is as before. -/
theorem decryptAuthEF_generateAuthField (siv : Siv) (inst : SivInstance) {out : Outgoing}
    (hversion : out.info.version = lvmToVersion (out.packet.bytes.headD 0))
    (nonce plaintext : List Byte) (minEfLength : ℤ) :
    let r := generateAuthField siv inst out nonce plaintext minEfLength
    let lengths := authLengths inst.algorithm nonce.length plaintext.length minEfLength
    (r.2 = true →
      (∀ bufferLength, plaintext.length ≤ bufferLength →
        decryptAuthEF siv inst r.1.data r.1.info out.info.length bufferLength = some plaintext) ∧
      ∃ efLength, r.1.info.length = out.info.length + efLength ∧
        IsLeast {n | AuthLengthOk inst.algorithm lengths.nonce lengths.ciphertext minEfLength n}
          efLength) ∧
    (r.2 = false → r.1.info = out.info) := by
  intro r lengths
  have heq := generateAuthField_eq siv inst out nonce plaintext minEfLength
  cases hgen : generateAuthEF siv inst out.data out.info nonce plaintext minEfLength with
  | none =>
      rw [hgen] at heq
      exact ⟨fun htrue => absurd (heq.1.symm.trans htrue) (by decide), fun _ => heq.2.1⟩
  | some r' =>
      rw [hgen] at heq
      refine ⟨fun _ => ⟨fun bufferLength hbuffer => ?_, ?_⟩, fun hfalse =>
        absurd (heq.1.symm.trans hfalse) (by decide)⟩
      · obtain ⟨-, ciphertext, -, hadd⟩ := generateAuthEF_cases hgen
        obtain ⟨hheader, hfits⟩ := length_of_addField hadd
        have hpacket : out.data.length = out.info.length := by
          rw [Outgoing.data, List.length_take, out.packet.length_bytes]
          omega
        have hhead := Outgoing.headD_data hheader []
        rw [List.append_nil] at hhead
        rw [heq.2.1, heq.2.2]
        exact decryptAuthEF_of_generateAuthEF hpacket (hversion.trans (by rw [hhead])) hgen hbuffer
      · refine ⟨4 + lengths.total, ?_, authLengths_isLeast ..⟩
        rw [heq.2.1]
        exact generateAuthEF_length hgen

/-- The round trip with a nonce of 16 bytes and a plaintext of a cookie's size, as in a response. -/
theorem decryptAuthEF_generateAuthField_response :
    let inst : SivInstance := ⟨.aesSivCmac256, some (List.replicate 32 1)⟩
    let nonce : List Byte := List.replicate 16 5
    let plaintext : List Byte := encodeField ntpEfNtsCookie (List.replicate 100 7)
    let r := generateAuthField sampleSiv inst sampleOutgoing nonce plaintext 28
    r.2 = true ∧ plaintext.length = 104 ∧
      decryptAuthEF sampleSiv inst r.1.data r.1.info sampleOutgoing.info.length 104 =
        some plaintext := by
  have hok : (generateAuthField sampleSiv ⟨.aesSivCmac256, some (List.replicate 32 1)⟩
      sampleOutgoing (List.replicate 16 5)
      (encodeField ntpEfNtsCookie (List.replicate 100 7)) 28).2 = true := by
    decide +kernel
  have htrip := decryptAuthEF_generateAuthField sampleSiv
    ⟨.aesSivCmac256, some (List.replicate 32 1)⟩ (show sampleOutgoing.info.version =
      lvmToVersion (sampleOutgoing.packet.bytes.headD 0) from rfl) (List.replicate 16 5)
    (encodeField ntpEfNtsCookie (List.replicate 100 7)) 28
  exact ⟨hok, rfl, (htrip.1 hok).1 104 (Nat.le_refl _)⟩

end Chrony.Nts
