import Chrony.Nts.ServerResponse

/-!
# Parsed Packets in the Loops of NTS

The client and the server of NTS parse the extension fields again, after `parse_packet`. An
accepted packet with NTS fields has no MAC and its fields end at the end of the packet. The loops
cannot find anything else.

## Main results

* `parsePacket_fields`: the fields of accepted packets, which are found by all loops.
-/

namespace Chrony.Nts

open Lib Bytes Ntp

variable {siv : Siv} {packet : List Byte} {info : PacketInfo}

/-! ### The loop bodies -/

/-- The loop bodies fail only for reasons of their own. -/
theorem foldlM_ne_error {ε α σ : Type} {body : σ → α → Except ε σ} {bad : ε}
    (hbody : ∀ s a, body s a ≠ .error bad) (l : List α) (s : σ) : l.foldlM body s ≠ .error bad := by
  induction l generalizing s with
  | nil => nofun
  | cons a l ih =>
      rw [List.foldlM_cons]
      intro h
      rcases bind_eq_error_iff.mp h with h | ⟨s', -, h⟩
      · exact hbody s a h
      · exact ih s' h

theorem checkResponseField_ne (s : SivInstance) (uniqId : List Byte) (r : ResponseFields)
    (field : ExtField) :
    checkResponseField siv s uniqId packet info r field ≠ .error .notExpected := by
  unfold checkResponseField
  repeat' split
  all_goals nofun

theorem checkRequestField_ne (r : RequestFields) (field : ExtField) :
    checkRequestField info r field ≠ .error .notExpected := by
  unfold checkRequestField RequestFields.addRequested
  repeat' split
  all_goals nofun

theorem copyUniqId_ne (q : List Byte × PacketInfo) (field : ExtField) :
    copyUniqId q field ≠ .error .notExpected := by
  unfold copyUniqId orFailed
  repeat' split
  all_goals nofun

/-- **A loop over fields which fill the packet does not find anything else.** -/
theorem forItems_ne_notExpected {ε σ : Type} {bad : ε} {body : σ → ExtField → Except ε σ}
    {fields : List ExtField} (hbody : ∀ s a, body s a ≠ .error bad)
    (hscan : Scan (parseField packet info.length) ntpHeaderLength fields info.length) (s : σ) :
    forItems (parseField packet info.length) bad info.length body info.length ntpHeaderLength s ≠
      .error bad := by
  rw [forItems_eq (parseField_pos packet info.length) hscan (Nat.sub_le _ _)]
  exact foldlM_ne_error hbody fields s

/-! ### Accepted packets -/

/-- A field without a MAC after it is longer than the longest MAC. -/
theorem length_last_field {fields : List ExtField} {field : ExtField} {start : ℕ}
    (hscan : Scan (parseField packet info.length) start fields info.length)
    (hlast : fields.getLast? = some field) : 28 ≤ field.bodyLength + 4 := by
  have hne : fields ≠ [] := by
    rintro rfl
    cases hlast
  obtain ⟨before, field', p, n, rfl, -, hparse, hend⟩ := hscan.exists_last hne
  rw [List.getLast?_concat] at hlast
  obtain rfl := Option.some.inj hlast
  have hbounds := parseField_bounds hparse
  have hlength := parseField_packetLength hparse
  omega

/-- **The fields of packets.** Every packet is accepted or rejected. The fields of an accepted
NTPv4 packet are counted, and they end at the MAC or at the end of the packet. A packet with NTS
fields has no MAC, and the loops of the client and the server do not fail to parse it. -/
theorem parsePacket_fields (siv : Siv) (packet : List Byte) :
    parsePacket packet ≠ .error .fuel ∧
    ∀ info, parsePacket packet = .ok info → info.version = 4 → ∃ fields stop,
      Scan (parseField packet info.length) ntpHeaderLength fields stop ∧
      parseField packet info.length stop = none ∧ fields.length = info.extFields ∧
      (∀ field ∈ fields, 16 ≤ field.bodyLength + 4 ∧ (field.bodyLength + 4) % 4 = 0) ∧
      (info.mac = none → stop = info.length ∧
        ∀ field, fields.getLast? = some field → 28 ≤ field.bodyLength + 4) ∧
      (∀ mac, info.mac = some mac → stop = mac.start ∧ mac.start + mac.length = info.length ∧
        ((20 ≤ mac.length ∧ mac.length ≤ 24) ∨ (mac.length = 4 ∧ mac.keyId = 0))) ∧
      (info.authMode = .nts → info.mac = none ∧
        (∀ s uniqId, checkResponseFields siv s uniqId packet info ≠ .error .notExpected) ∧
        checkRequestFields packet info ≠ .error .notExpected ∧
        ∀ response, copyUniqIds packet info response ≠ .error .notExpected) := by
  refine ⟨parsePacket_returns packet, fun info hparse hversion => ?_⟩
  obtain ⟨fields, stop, h⟩ := parsePacket_consistent hparse hversion
  refine ⟨fields, stop, h.scan, h.last, h.count, ?_, ?_, ?_, ?_⟩
  · intro field hmem
    obtain ⟨p, n, -, -, hfield⟩ := h.scan.exists_of_mem hmem
    obtain ⟨hmin, hmod, -, hlength, -⟩ := parseField_bounds hfield
    rw [hlength]
    exact ⟨hmin, hmod⟩
  · intro hnone
    obtain rfl := h.noMac hnone
    exact ⟨rfl, fun field hlast => length_last_field h.scan hlast⟩
  · intro mac hmac
    obtain ⟨-, hstart, hend, hlength⟩ := h.mac mac hmac
    exact ⟨hstart, hend, hlength⟩
  · intro hnts
    have hnone : info.mac = none := by
      cases hmac : info.mac with
      | none => rfl
      | some mac =>
          obtain ⟨hsymmetric, -⟩ := h.mac mac hmac
          cases hsymmetric.symm.trans hnts
    obtain rfl := h.noMac hnone
    refine ⟨hnone, fun s uniqId => ?_, ?_, fun response => ?_⟩
    · exact forItems_ne_notExpected (checkResponseField_ne s uniqId) h.scan _
    · exact forItems_ne_notExpected checkRequestField_ne h.scan _
    · exact forItems_ne_notExpected copyUniqId_ne h.scan _

/-- A request with five fields. -/
theorem parsePacket_fields_sampleRequest : ∃ fields stop,
    Scan (parseField sampleRequest 344) ntpHeaderLength fields stop ∧ fields.length = 5 ∧
      stop = 344 ∧ checkRequestFields sampleRequest sampleRequestInfo ≠ .error .notExpected := by
  have hparse : parsePacket sampleRequest = .ok sampleRequestInfo := by decide +kernel
  obtain ⟨fields, stop, hscan, -, hcount, -, hnone, -, hnts⟩ :=
    (parsePacket_fields sampleSiv sampleRequest).2 sampleRequestInfo hparse rfl
  exact ⟨fields, stop, hscan, hcount, (hnone rfl).1, (hnts rfl).2.2.1⟩

end Chrony.Nts
