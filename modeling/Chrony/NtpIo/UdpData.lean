import Chrony.Addressing
import Chrony.Lib.Bytes
import Mathlib.Tactic.Common

/-!
# UDP Data of Looped-Back Frames

The kernel returns the transmitted packets with their timestamps as frames of the layer 2. The
destination and the data are extracted from the headers of a frame by `extract_udp_data` of
`ntp_io_linux.c`. In the model, every read checks that it is in the frame, and the loops stop
when the fuel is used up. Both of them give `none`.

## Main results

* `skipHeaders_spec`: the extension headers of IPv6 which are skipped.
* `extractUdpData_iff`: what is extracted from any frame.
-/

namespace Chrony.NtpIo

open Lib Bytes

/-! ### Reads -/

/-- A byte of the message. -/
def byteAt (msg : List Byte) (i : ℕ) : Option ℕ := msg[i]?.map BitVec.toNat

/-- Two bytes of the message, which are read by `ntohs`. -/
def word16At (msg : List Byte) (i : ℕ) : Option ℕ :=
  if i + 2 ≤ msg.length then some (decode16 (msg.drop i)) else none

/-- Bytes which are copied from the message. -/
def bytesAt (msg : List Byte) (i n : ℕ) : Option (List Byte) :=
  if i + n ≤ msg.length then some (slice msg i n) else none

/-! ### Headers -/

/-- The destination of a packet, the length of its data, and the data. -/
structure UdpData where
  ipAddr : IPAddr
  port : ℕ
  length : ℤ
  data : List Byte
  deriving DecidableEq

/-- `struct in6_addr`. -/
def in6Addr (bytes : List Byte) : IPAddr := .inet6 fun i => bytes.getD i 0

/-- The end of `extract_udp_data`, which moves the data. -/
def moveData (ipAddr : IPAddr) (port : ℕ) (len : ℤ) (msg : List Byte) : Option (Option UdpData) :=
  if len > 0 then (bytesAt msg 0 len.toNat).map fun data => some ⟨ipAddr, port, len, data⟩
  else some (some ⟨ipAddr, port, len, []⟩)

/-- The first loop, which skips VLAN tags. -/
def skipVlanTags : ℕ → ℤ → List Byte → Option (ℤ × List Byte)
  | 0, _, _ => none
  | fuel + 1, len, msg =>
      if len ≥ 4 then do
        let a ← byteAt msg 0
        let b ← byteAt msg 1
        if a = 0x81 ∧ b = 0x00 then skipVlanTags fuel (len - 4) (msg.drop 4) else some (len, msg)
      else some (len, msg)

/-- The length of an extension header, if it is skipped. -/
def extHeaderLength (nextHeader : ℕ) (msg : List Byte) : Option (Option ℕ) :=
  if nextHeader = 44 then
    (word16At msg 2).map fun offset => if offset >>> 3 ≠ 0 then none else some 8
  else if nextHeader = 0 ∨ nextHeader = 43 ∨ nextHeader = 60 ∨ nextHeader = 135 then
    (byteAt msg 1).map fun n => some (8 * (n + 1))
  else if nextHeader = 51 then (byteAt msg 1).map fun n => some (4 * (n + 2))
  else some none

/-- The second loop, which skips IPv6 extension headers up to the UDP header. -/
def skipHeaders : ℕ → ℕ → ℤ → List Byte → Option (Option (ℤ × List Byte))
  | 0, _, _, _ => none
  | fuel + 1, nextHeader, len, msg =>
      if nextHeader = 17 then some (some (len, msg))
      else do
        match ← extHeaderLength nextHeader msg with
        | none => some none
        | some ehLen =>
            if ehLen < 8 ∨ len < ehLen + 8 then some none
            else do
              let nextHeader ← byteAt msg 0
              skipHeaders fuel nextHeader (len - ehLen) (msg.drop ehLen)

/-- The branch for IPv4. -/
def extractIpv4 (len : ℤ) (msg : List Byte) : Option (Option UdpData) := do
  let first ← byteAt msg 0
  let ihl := first % 16 * 4
  if len < ihl + 8 then some none
  else do
    let protocol ← byteAt msg 9
    if protocol ≠ 17 then some none
    else do
      let addr ← bytesAt msg 16 4
      let port ← word16At msg (ihl + 2)
      moveData (.inet4 (BitVec.ofNat 32 (decode32 addr))) port (len - (ihl + 8))
        (msg.drop (ihl + 8))

/-- The branch for IPv6. -/
def extractIpv6 (fuel : ℕ) (len : ℤ) (msg : List Byte) : Option (Option UdpData) := do
  let nextHeader ← byteAt msg 6
  let addr ← bytesAt msg 24 16
  match ← skipHeaders fuel nextHeader (len - 40) (msg.drop 40) with
  | none => some none
  | some (len, msg) => do
      let port ← word16At msg 2
      moveData (in6Addr addr) port (len - 8) (msg.drop 8)

/-- The packet after the ethertype. -/
def extractPacket (fuel : ℕ) (len : ℤ) (msg : List Byte) : Option (Option UdpData) :=
  if len ≥ 20 then do
    let first ← byteAt msg 0
    if first >>> 4 = 4 then extractIpv4 len msg
    else if len ≥ 48 ∧ first >>> 4 = 6 then extractIpv6 fuel len msg
    else some none
  else some none

/-- `extract_udp_data`. It returns nothing if it reads outside of the frame, or does not end. -/
def extractUdpData (frame : List Byte) : Option (Option UdpData) :=
  let fuel := frame.length + 1
  if (frame.length : ℤ) < 12 then some none
  else do
    let (len, msg) ← skipVlanTags fuel (frame.length - 12) (frame.drop 12)
    if len < 2 then some none
    else do
      let a ← byteAt msg 0
      let b ← byteAt msg 1
      if ¬((a = 0x08 ∧ b = 0x00) ∨ (a = 0x86 ∧ b = 0xdd)) then some none
      else extractPacket fuel (len - 2) (msg.drop 2)

/-! ### Frames -/

/-- A VLAN tag, which is in the place of the ethertype. -/
def IsVlanTag (tag : List Byte) : Prop := ∃ a b, tag = [0x81, 0x00, a, b]

/-- **An Ethernet frame with a packet**: the addresses, VLAN tags, and the ethertype of IPv4 or
IPv6. -/
def IsFrame (frame packet : List Byte) : Prop :=
  ∃ (macs : List Byte) (tags : List (List Byte)) (etherType : List Byte), macs.length = 12 ∧
    (∀ tag ∈ tags, IsVlanTag tag) ∧ (etherType = [0x08, 0x00] ∨ etherType = [0x86, 0xdd]) ∧
    frame = macs ++ (tags.flatten ++ (etherType ++ packet))

/-- **One IPv6 extension header** of a kind, with the kind of the next one. A fragment is the
first one. -/
inductive ExtHeader : ℕ → List Byte → Byte → Prop
  | fragment (next reserved hi lo : Byte) (id : List Byte) (hid : id.length = 4)
      (hfirst : (hi.toNat * 256 + lo.toNat) >>> 3 = 0) :
      ExtHeader 44 (next :: reserved :: hi :: lo :: id) next
  | options (kind : ℕ) (next size : Byte) (body : List Byte)
      (hkind : kind = 0 ∨ kind = 43 ∨ kind = 60 ∨ kind = 135)
      (hbody : (next :: size :: body).length = 8 * (size.toNat + 1)) :
      ExtHeader kind (next :: size :: body) next
  | authentication (next size : Byte) (body : List Byte)
      (hbody : (next :: size :: body).length = 4 * (size.toNat + 2)) :
      ExtHeader 51 (next :: size :: body) next

/-- **The headers of a packet from a kind to the UDP header.** -/
inductive HeaderChain : ℕ → List Byte → List Byte → Prop
  | udp (udp : List Byte) (hudp : 8 ≤ udp.length) : HeaderChain 17 udp udp
  | ext {kind : ℕ} {header : List Byte} {next : Byte} {rest udp : List Byte}
      (header_ext : ExtHeader kind header next) (chain : HeaderChain next.toNat rest udp) :
      HeaderChain kind (header ++ rest) udp

/-- **A packet of IPv4 with its UDP header and the following data.** The position of the UDP header
is given by the length of the IPv4 header. -/
structure IsIpv4 (packet udp : List Byte) (ipAddr : IPAddr) : Prop where
  length : 20 ≤ packet.length
  version : ∃ first, byteAt packet 0 = some first ∧ first >>> 4 = 4 ∧
    udp = packet.drop (first % 16 * 4)
  protocol : byteAt packet 9 = some 17
  ipAddr : ipAddr = .inet4 (BitVec.ofNat 32 (decode32 (packet.drop 16)))

/-- **A packet of IPv6 with its UDP header and the following data.** -/
structure IsIpv6 (packet udp : List Byte) (ipAddr : IPAddr) : Prop where
  length : 40 ≤ packet.length
  version : ∃ first, byteAt packet 0 = some first ∧ first >>> 4 = 6
  chain : ∃ next, byteAt packet 6 = some next ∧ HeaderChain next (packet.drop 40) udp
  ipAddr : ipAddr = in6Addr (slice packet 24 16)

/-- **A UDP header with the following data.** -/
structure IsUdp (udp : List Byte) (r : UdpData) : Prop where
  header : 8 ≤ udp.length
  port : r.port = decode16 (udp.drop 2)
  data : r.data = udp.drop 8
  length : r.length = r.data.length

/-- **A packet of IPv4 or IPv6 with UDP data.** -/
def IsPacket (packet : List Byte) (r : UdpData) : Prop :=
  ∃ udp, (IsIpv4 packet udp r.ipAddr ∨ IsIpv6 packet udp r.ipAddr) ∧ IsUdp udp r

/-- **A frame with UDP data.** -/
def Carries (frame : List Byte) (r : UdpData) : Prop :=
  ∃ packet, IsFrame frame packet ∧ IsPacket packet r

/-! ### VLAN tags -/

theorem byteAt_eq {msg : List Byte} {i : ℕ} (h : i < msg.length) :
    byteAt msg i = some (msg.getD i 0).toNat := by
  rw [byteAt, List.getD_eq_getElem?_getD, List.getElem?_eq_getElem h]
  rfl

theorem word16At_eq {msg : List Byte} {i : ℕ} (h : i + 2 ≤ msg.length) :
    word16At msg i = some (decode16 (msg.drop i)) :=
  if_pos h

theorem bytesAt_eq {msg : List Byte} {i n : ℕ} (h : i + n ≤ msg.length) :
    bytesAt msg i n = some (slice msg i n) :=
  if_pos h

/-- The rest of a frame does not start with a tag. -/
def Untagged (msg : List Byte) : Prop := ∀ tag rest, IsVlanTag tag → msg ≠ tag ++ rest

/-- The tags at the start of a frame. -/
theorem exists_tags (msg : List Byte) : ∃ (tags : List (List Byte)) (rest : List Byte),
    (∀ tag ∈ tags, IsVlanTag tag) ∧ Untagged rest ∧ msg = tags.flatten ++ rest := by
  by_cases h : Untagged msg
  · exact ⟨[], msg, fun tag htag => absurd htag List.not_mem_nil, h, rfl⟩
  · simp only [Untagged, not_forall, not_not] at h
    obtain ⟨tag, msg', htag, rfl⟩ := h
    have hlt : msg'.length < (tag ++ msg').length := by
      obtain ⟨a, b, rfl⟩ := htag
      rw [List.length_append]
      exact Nat.lt_add_of_pos_left (Nat.succ_pos _)
    obtain ⟨tags, rest, htags, hrest, rfl⟩ := exists_tags msg'
    refine ⟨tag :: tags, rest, ?_, hrest, by simp⟩
    intro tag' htag'
    rcases List.mem_cons.mp htag' with rfl | htag'
    · exact htag
    · exact htags tag' htag'
termination_by msg.length

theorem skipVlanTags_untagged {fuel : ℕ} {msg : List Byte} (h : Untagged msg) :
    skipVlanTags (fuel + 1) msg.length msg = some ((msg.length : ℤ), msg) := by
  rw [skipVlanTags]
  split
  next hlen =>
      rcases msg with _ | ⟨a, _ | ⟨b, _ | ⟨c, _ | ⟨d, rest⟩⟩⟩⟩
      all_goals try exact absurd hlen (by simp only [List.length_cons, List.length_nil]; omega)
      · have hne : ¬(a.toNat = 0x81 ∧ b.toNat = 0x00) := by
          rintro ⟨ha, hb⟩
          have ha : a = 0x81 := BitVec.eq_of_toNat_eq ha
          have hb : b = 0x00 := BitVec.eq_of_toNat_eq hb
          exact h [a, b, c, d] rest ⟨c, d, by rw [ha, hb]⟩ rfl
        exact if_neg hne
  · rfl

/-- **The tags are skipped.** -/
theorem skipVlanTags_eq {fuel : ℕ} {tags : List (List Byte)} {rest : List Byte}
    (htags : ∀ tag ∈ tags, IsVlanTag tag) (hrest : Untagged rest) (hfuel : tags.length < fuel) :
    skipVlanTags fuel (tags.flatten ++ rest).length (tags.flatten ++ rest) =
      some ((rest.length : ℤ), rest) := by
  induction tags generalizing fuel with
  | nil =>
      obtain ⟨fuel, rfl⟩ := Nat.exists_eq_succ_of_ne_zero (Nat.ne_zero_of_lt hfuel)
      exact skipVlanTags_untagged hrest
  | cons tag tags ih =>
      cases fuel with
      | zero => cases hfuel
      | succ fuel =>
          obtain ⟨a, b, rfl⟩ := htags tag List.mem_cons_self
          have hstep : ∀ msg : List Byte, skipVlanTags (fuel + 1) ((msg.length + 4 : ℕ) : ℤ)
              (0x81 :: 0x00 :: a :: b :: msg) = skipVlanTags fuel msg.length msg := by
            intro msg
            rw [skipVlanTags, if_pos (by omega)]
            change skipVlanTags fuel (((msg.length + 4 : ℕ) : ℤ) - 4) msg = _
            congr 1
            omega
          exact (hstep _).trans (ih (fun tag htag => htags tag (List.mem_cons_of_mem _ htag))
            (Nat.lt_of_succ_lt_succ hfuel))

/-! ### Extension headers -/

/-- What is read of an extension header. -/
theorem ExtHeader.read {kind : ℕ} {header : List Byte} {next : Byte}
    (h : ExtHeader kind header next) (rest : List Byte) :
    extHeaderLength kind (header ++ rest) = some (some header.length) ∧ kind ≠ 17 ∧
      8 ≤ header.length ∧ byteAt (header ++ rest) 0 = some next.toNat := by
  cases h with
  | fragment next reserved hi lo id hid hfirst =>
      refine ⟨?_, by decide, ?_, rfl⟩
      · have hoffset : word16At (next :: reserved :: hi :: lo :: id ++ rest) 2 =
            some (hi.toNat * 256 + lo.toNat) := by
          refine word16At_eq ?_
          simp
        have hlength : (next :: reserved :: hi :: lo :: id).length = 8 := by
          simp [hid]
        rw [extHeaderLength, if_pos rfl, hoffset, Option.map_some, hfirst, hlength]
        rfl
      · simp [hid]
  | options kind next size body hkind hbody =>
      refine ⟨?_, by omega, by omega, rfl⟩
      have hne : kind ≠ 44 := by omega
      rw [extHeaderLength, if_neg hne, if_pos hkind, hbody]
      rfl
  | authentication next size body hbody =>
      refine ⟨?_, by decide, by omega, rfl⟩
      rw [extHeaderLength, if_neg (by decide), if_neg (by decide), if_pos rfl, hbody]
      rfl

/-- An extension header is skipped only if it is one of the known ones. -/
theorem extHeaderLength_eq (kind : ℕ) {msg : List Byte} (hmsg : 8 ≤ msg.length) :
    ∃ o, extHeaderLength kind msg = some o ∧ ∀ n, o = some n → n ≤ msg.length →
      ∃ next, ExtHeader kind (msg.take n) next := by
  obtain ⟨next, size, hi, lo, rest, rfl, hrest⟩ :
      ∃ next size hi lo rest, msg = next :: size :: hi :: lo :: rest ∧ 4 ≤ rest.length := by
    rcases msg with _ | ⟨next, _ | ⟨size, _ | ⟨hi, _ | ⟨lo, rest⟩⟩⟩⟩
    all_goals simp only [List.length_cons, List.length_nil] at hmsg
    all_goals try omega
    exact ⟨next, size, hi, lo, rest, rfl, by omega⟩
  rw [extHeaderLength]
  split
  next hkind =>
      subst hkind
      rw [word16At_eq (by omega)]
      refine ⟨_, rfl, fun n hn hle => ?_⟩
      dsimp only at hn
      split at hn
      · cases hn
      next hfirst =>
          obtain rfl := Option.some.inj hn
          refine ⟨next, .fragment next size hi lo (rest.take 4) ?_ (not_not.mp hfirst)⟩
          rw [List.length_take]
          omega
  next =>
      split
      next hkind =>
          refine ⟨_, rfl, fun n hn hle => ?_⟩
          obtain rfl := Option.some.inj hn
          have htake : (next :: size :: hi :: lo :: rest).take (8 * (size.toNat + 1)) =
              next :: size :: (hi :: lo :: rest).take (8 * (size.toNat + 1) - 2) := by
            rw [show 8 * (size.toNat + 1) = (8 * (size.toNat + 1) - 2) + 2 by omega]
            rfl
          have hlength := congrArg List.length htake
          rw [List.length_take, min_eq_left hle] at hlength
          exact ⟨next, htake ▸ .options kind next size _ hkind hlength.symm⟩
      next =>
          split
          next hkind =>
              subst hkind
              refine ⟨_, rfl, fun n hn hle => ?_⟩
              obtain rfl := Option.some.inj hn
              have htake : (next :: size :: hi :: lo :: rest).take (4 * (size.toNat + 2)) =
                  next :: size :: (hi :: lo :: rest).take (4 * (size.toNat + 2) - 2) := by
                rw [show 4 * (size.toNat + 2) = (4 * (size.toNat + 2) - 2) + 2 by omega]
                rfl
              have hlength := congrArg List.length htake
              rw [List.length_take, min_eq_left hle] at hlength
              exact ⟨next, htake ▸ .authentication next size _ hlength.symm⟩
          next => exact ⟨none, rfl, fun n hn => absurd hn (Option.some_ne_none n).symm⟩

theorem HeaderChain.length {kind : ℕ} {msg udp : List Byte} (h : HeaderChain kind msg udp) :
    8 ≤ udp.length ∧ udp.length ≤ msg.length := by
  induction h with
  | udp udp hudp => exact ⟨hudp, le_rfl⟩
  | ext _ _ ih =>
      refine ⟨ih.1, ih.2.trans ?_⟩
      rw [List.length_append]
      exact Nat.le_add_left _ _

/-- **The extension headers are skipped up to the UDP header**, if there is one. All reads are
in the message, and the fuel is not used up. -/
theorem skipHeaders_spec {fuel kind : ℕ} {msg : List Byte} (hmsg : 8 ≤ msg.length)
    (hfuel : msg.length < fuel) :
    ∃ o, skipHeaders fuel kind msg.length msg = some o ∧
      ∀ len udp, o = some (len, udp) ↔ len = udp.length ∧ HeaderChain kind msg udp := by
  induction fuel generalizing kind msg with
  | zero => cases hfuel
  | succ fuel ih =>
      rw [skipHeaders]
      split
      next hkind =>
          subst hkind
          refine ⟨_, rfl, fun len udp => ⟨fun h => ?_, ?_⟩⟩
          · obtain ⟨rfl, rfl⟩ := Prod.mk.inj (Option.some.inj h)
            exact ⟨rfl, .udp msg hmsg⟩
          · rintro ⟨rfl, hchain⟩
            cases hchain with
            | udp => rfl
            | ext hheader => exact absurd rfl (hheader.read []).2.1
      next hkind =>
          obtain ⟨o, ho, hheader⟩ := extHeaderLength_eq kind hmsg
          rw [ho, Option.bind_eq_bind, Option.bind_some]
          -- a chain starts with a header which was read
          have hread : ∀ udp, HeaderChain kind msg udp → ∃ header next rest,
              ExtHeader kind header next ∧ msg = header ++ rest ∧
                HeaderChain next.toNat rest udp ∧ o = some header.length := by
            intro udp hchain
            cases hchain with
            | udp => exact absurd rfl hkind
            | ext hext hrest =>
                refine ⟨_, _, _, hext, rfl, hrest, ?_⟩
                exact Option.some.inj (ho.symm.trans (hext.read _).1)
          cases o with
          | none =>
              refine ⟨none, rfl, fun len udp => ⟨nofun, ?_⟩⟩
              rintro ⟨-, hchain⟩
              obtain ⟨_, _, _, -, -, -, hnone⟩ := hread udp hchain
              cases hnone
          | some ehLen =>
              dsimp only
              split
              next hshort =>
                  refine ⟨none, rfl, fun len udp => ⟨nofun, ?_⟩⟩
                  rintro ⟨-, hchain⟩
                  obtain ⟨header, next, rest, hext, rfl, hrest, heq⟩ := hread udp hchain
                  obtain rfl := Option.some.inj heq
                  have hlong := (hext.read rest).2.2.1
                  have hudp := hrest.length
                  rw [List.length_append] at hshort
                  omega
              next hlong =>
                  obtain ⟨next, hnext⟩ := hheader ehLen rfl (by omega)
                  have hmsg' : 8 ≤ (msg.drop ehLen).length := by
                    rw [List.length_drop]
                    omega
                  have hfuel' : (msg.drop ehLen).length < fuel := by
                    rw [List.length_drop]
                    omega
                  have hbyte := (hnext.read (msg.drop ehLen)).2.2.2
                  rw [List.take_append_drop] at hbyte
                  have hlen : ((msg.length : ℤ) - ehLen) = (msg.drop ehLen).length := by
                    rw [List.length_drop]
                    omega
                  rw [hbyte, Option.bind_eq_bind, Option.bind_some, hlen]
                  obtain ⟨o', ho', hiff⟩ := @ih next.toNat _ hmsg' hfuel'
                  refine ⟨o', ho', fun len udp => ?_⟩
                  refine (hiff len udp).trans (and_congr_right fun _ => ?_)
                  constructor
                  · intro hchain
                    have hall := HeaderChain.ext hnext hchain
                    rwa [List.take_append_drop] at hall
                  · intro hchain
                    obtain ⟨header, next', rest, hext, rfl, hrest, heq⟩ := hread udp hchain
                    obtain rfl := Option.some.inj heq
                    rw [List.take_left] at hnext
                    rw [List.drop_left]
                    have hsame := (hext.read []).2.2.2.symm.trans (hnext.read []).2.2.2
                    obtain rfl := BitVec.eq_of_toNat_eq (Option.some.inj hsame)
                    exact hrest

/-! ### Packets -/

/-- The data is moved to the start of the message. -/
theorem moveData_eq (ipAddr : IPAddr) (port : ℕ) (msg : List Byte) :
    moveData ipAddr port msg.length msg = some (some ⟨ipAddr, port, msg.length, msg⟩) := by
  rw [moveData]
  split
  · rw [Int.toNat_natCast, bytesAt_eq (Nat.zero_add _).le, slice, List.drop_zero, List.take_length]
    rfl
  next hempty =>
      have hnil : msg = [] := List.eq_nil_of_length_eq_zero (by omega)
      rw [hnil]

/-- The end of a packet from its UDP header. -/
theorem moveData_udp (ipAddr : IPAddr) {udp : List Byte} (hudp : 8 ≤ udp.length) :
    ∃ o, moveData ipAddr (decode16 (udp.drop 2)) ((udp.length : ℤ) - 8) (udp.drop 8) = some o ∧
      ∀ r, o = some r ↔ r.ipAddr = ipAddr ∧ IsUdp udp r := by
  have hlen : ((udp.length : ℤ) - 8) = (udp.drop 8).length := by
    rw [List.length_drop]
    omega
  rw [hlen, moveData_eq]
  refine ⟨_, rfl, fun r => ⟨fun h => ?_, ?_⟩⟩
  · obtain rfl := Option.some.inj h
    exact ⟨rfl, hudp, rfl, rfl, rfl⟩
  · rintro ⟨hip, -, hport, hdata, hlength⟩
    obtain ⟨ip, port, length, data⟩ := r
    dsimp only at hip hport hdata hlength
    subst hip hport hdata hlength
    rfl

theorem slice_decode32 (msg : List Byte) (i : ℕ) :
    decode32 (slice msg i 4) = decode32 (msg.drop i) := by
  rw [slice, decode32, decode32]
  rcases msg.drop i with _ | ⟨a, _ | ⟨b, _ | ⟨c, _ | ⟨d, l⟩⟩⟩⟩
  all_goals rfl

/-- **The branch for IPv4.** -/
theorem extractIpv4_spec {msg : List Byte} (hlen : 20 ≤ msg.length) {first : ℕ}
    (hfirst : byteAt msg 0 = some first) (hversion : first >>> 4 = 4) :
    ∃ o, extractIpv4 msg.length msg = some o ∧
      ∀ r, o = some r ↔ ∃ udp, IsIpv4 msg udp r.ipAddr ∧ IsUdp udp r := by
  have hunique : ∀ udp ipAddr, IsIpv4 msg udp ipAddr → udp = msg.drop (first % 16 * 4) := by
    rintro udp ipAddr ⟨-, ⟨first', hfirst', -, rfl⟩, -, -⟩
    obtain rfl := Option.some.inj (hfirst.symm.trans hfirst')
    rfl
  rw [extractIpv4, hfirst, Option.bind_eq_bind, Option.bind_some]
  dsimp only
  split
  next hshort =>
      refine ⟨none, rfl, fun r => ⟨nofun, ?_⟩⟩
      rintro ⟨udp, hip, hudp⟩
      have hheader := hudp.header
      rw [hunique udp _ hip, List.length_drop] at hheader
      omega
  next hlong =>
      have hprotocol : byteAt msg 9 = some (msg.getD 9 0).toNat := byteAt_eq (by omega)
      rw [hprotocol, Option.bind_some]
      split
      next hother =>
          refine ⟨none, rfl, fun r => ⟨nofun, ?_⟩⟩
          rintro ⟨udp, hip, -⟩
          exact absurd (Option.some.inj (hprotocol.symm.trans hip.protocol)) hother
      next hudp =>
          have hbytes : bytesAt msg 16 4 = some (slice msg 16 4) := bytesAt_eq (by omega)
          have hport : word16At msg (first % 16 * 4 + 2) =
              some (decode16 ((msg.drop (first % 16 * 4)).drop 2)) := by
            rw [List.drop_drop]
            exact word16At_eq (by omega)
          have hrest : 8 ≤ (msg.drop (first % 16 * 4)).length := by
            rw [List.length_drop]
            omega
          have hsub : ((msg.length : ℤ) - (((first % 16 * 4 : ℕ) : ℤ) + 8)) =
              ((msg.drop (first % 16 * 4)).length : ℤ) - 8 := by
            rw [List.length_drop]
            omega
          obtain ⟨o, ho, hiff⟩ := moveData_udp
            (.inet4 (BitVec.ofNat 32 (decode32 (msg.drop 16)))) hrest
          simp only [hbytes, hport, Option.bind_eq_bind, Option.bind_some, slice_decode32, hsub,
            ← List.drop_drop]
          refine ⟨o, ho, fun r => (hiff r).trans ⟨?_, ?_⟩⟩
          · rintro ⟨hip, hr⟩
            refine ⟨_, ⟨hlen, ⟨first, hfirst, hversion, rfl⟩, ?_, hip⟩, hr⟩
            rw [hprotocol, not_not.mp hudp]
          · rintro ⟨udp, hip, hr⟩
            obtain rfl := hunique udp _ hip
            exact ⟨hip.ipAddr, hr⟩

/-- **The branch for IPv6.** -/
theorem extractIpv6_spec {fuel : ℕ} {msg : List Byte} (hlen : 48 ≤ msg.length)
    (hfuel : msg.length < fuel) {first : ℕ} (hfirst : byteAt msg 0 = some first)
    (hversion : first >>> 4 = 6) :
    ∃ o, extractIpv6 fuel msg.length msg = some o ∧
      ∀ r, o = some r ↔ ∃ udp, IsIpv6 msg udp r.ipAddr ∧ IsUdp udp r := by
  have hnext : byteAt msg 6 = some (msg.getD 6 0).toNat := byteAt_eq (by omega)
  have haddr : bytesAt msg 24 16 = some (slice msg 24 16) := bytesAt_eq (by omega)
  have hmsg : 8 ≤ (msg.drop 40).length := by
    rw [List.length_drop]
    omega
  have hsub : ((msg.length : ℤ) - 40) = (msg.drop 40).length := by
    rw [List.length_drop]
    omega
  have hfuel' : (msg.drop 40).length < fuel := by
    rw [List.length_drop]
    omega
  obtain ⟨o, ho, hchain⟩ := @skipHeaders_spec fuel (msg.getD 6 0).toNat _ hmsg hfuel'
  have hip : ∀ udp ipAddr, IsIpv6 msg udp ipAddr ↔
      HeaderChain (msg.getD 6 0).toNat (msg.drop 40) udp ∧ ipAddr = in6Addr (slice msg 24 16) := by
    intro udp ipAddr
    constructor
    · rintro ⟨-, -, ⟨next, hnext', hudp⟩, hip⟩
      obtain rfl := Option.some.inj (hnext.symm.trans hnext')
      exact ⟨hudp, hip⟩
    · rintro ⟨hudp, hip⟩
      exact ⟨by omega, ⟨first, hfirst, hversion⟩, ⟨_, hnext, hudp⟩, hip⟩
  simp only [extractIpv6, hnext, haddr, Option.bind_eq_bind, Option.bind_some, hsub, ho]
  cases o with
  | none =>
      refine ⟨none, rfl, fun r => ⟨nofun, ?_⟩⟩
      rintro ⟨udp, hudp, -⟩
      have hsome := (hchain udp.length udp).mpr ⟨rfl, ((hip udp _).mp hudp).1⟩
      cases hsome
  | some found =>
      obtain ⟨len, udp⟩ := found
      obtain ⟨rfl, hudp⟩ := (hchain len udp).mp rfl
      have hheader := hudp.length.1
      obtain ⟨o, ho, hiff⟩ := moveData_udp (in6Addr (slice msg 24 16)) hheader
      dsimp only
      rw [word16At_eq (by omega), Option.bind_some, ho]
      refine ⟨o, rfl, fun r => (hiff r).trans ⟨?_, ?_⟩⟩
      · rintro ⟨hr, hdata⟩
        exact ⟨udp, (hip udp _).mpr ⟨hudp, hr⟩, hdata⟩
      · rintro ⟨udp', hudp', hdata⟩
        obtain ⟨hudp', hr⟩ := (hip udp' _).mp hudp'
        have hsome := (hchain udp'.length udp').mpr ⟨rfl, hudp'⟩
        obtain rfl : udp = udp' := congrArg Prod.snd (Option.some.inj hsome)
        exact ⟨hr, hdata⟩

/-- **The data of a packet** is extracted if and only if it is one with UDP data. -/
theorem extractPacket_spec {fuel : ℕ} {msg : List Byte} (hfuel : msg.length < fuel) :
    ∃ o, extractPacket fuel msg.length msg = some o ∧ ∀ r, o = some r ↔ IsPacket msg r := by
  have hlong : ∀ r, IsPacket msg r → 20 ≤ msg.length := by
    rintro r ⟨udp, hip | hip, -⟩
    · exact hip.length
    · exact le_trans (by decide) hip.length
  rw [extractPacket]
  split
  next hlen =>
      have hlen : 20 ≤ msg.length := by omega
      have hfirst : byteAt msg 0 = some (msg.getD 0 0).toNat := byteAt_eq (by omega)
      have hsame : ∀ {first version : ℕ}, byteAt msg 0 = some first → first >>> 4 = version →
          (msg.getD 0 0).toNat >>> 4 = version := by
        intro first version hfirst' hversion
        obtain rfl := Option.some.inj (hfirst.symm.trans hfirst')
        exact hversion
      rw [hfirst, Option.bind_eq_bind, Option.bind_some]
      split
      next hversion =>
          obtain ⟨o, ho, hiff⟩ := extractIpv4_spec hlen hfirst hversion
          refine ⟨o, ho, fun r => (hiff r).trans ⟨?_, ?_⟩⟩
          · rintro ⟨udp, hip, hr⟩
            exact ⟨udp, .inl hip, hr⟩
          · rintro ⟨udp, hip | ⟨-, ⟨first, hfirst', hsix⟩, -⟩, hr⟩
            · exact ⟨udp, hip, hr⟩
            · exact absurd (hversion.symm.trans (hsame hfirst' hsix)) (by decide)
      next hnot4 =>
          split
          next hlen6 =>
              obtain ⟨o, ho, hiff⟩ := extractIpv6_spec (by omega) hfuel hfirst hlen6.2
              refine ⟨o, ho, fun r => (hiff r).trans ⟨?_, ?_⟩⟩
              · rintro ⟨udp, hip, hr⟩
                exact ⟨udp, .inr hip, hr⟩
              · rintro ⟨udp, ⟨-, ⟨first, hfirst', hfour, -⟩, -⟩ | hip, hr⟩
                · exact absurd (hsame hfirst' hfour) hnot4
                · exact ⟨udp, hip, hr⟩
          next hnot6 =>
              refine ⟨none, rfl, fun r => ⟨nofun, ?_⟩⟩
              rintro ⟨udp, ⟨-, ⟨first, hfirst', hfour, -⟩, -⟩ |
                ⟨-, ⟨first, hfirst', hsix⟩, ⟨next, -, hchain⟩, -⟩, -⟩
              · exact absurd (hsame hfirst' hfour) hnot4
              · have hlength := hchain.length
                rw [List.length_drop] at hlength
                exact absurd ⟨by omega, hsame hfirst' hsix⟩ hnot6
  next hshort =>
      refine ⟨none, rfl, fun r => ⟨nofun, fun h => ?_⟩⟩
      have := hlong r h
      omega

/-! ### Frames -/

/-- An ethertype is not a tag. -/
theorem untagged_etherType {etherType packet : List Byte}
    (h : etherType = [0x08, 0x00] ∨ etherType = [0x86, 0xdd]) : Untagged (etherType ++ packet) := by
  rintro tag rest ⟨a, b, rfl⟩ heq
  rcases h with rfl | rfl
  · exact absurd (List.cons.inj heq).1 (by decide)
  · exact absurd (List.cons.inj heq).1 (by decide)

/-- **What is extracted from any frame.** All reads are in the frame, and both loops end. The
result is the destination and the data of the packet if and only if the frame is an Ethernet
frame which has a UDP packet of IPv4 or IPv6 with extension headers. -/
theorem extractUdpData_iff (frame : List Byte) :
    extractUdpData frame ≠ none ∧
      ∀ r, extractUdpData frame = some (some r) ↔ Carries frame r := by
  suffices h : ∃ o, extractUdpData frame = some o ∧ ∀ r, o = some r ↔ Carries frame r by
    obtain ⟨o, ho, hiff⟩ := h
    rw [ho]
    exact ⟨Option.some_ne_none o, fun r => ⟨fun h => (hiff r).mp (Option.some.inj h),
      fun h => congrArg some ((hiff r).mpr h)⟩⟩
  obtain ⟨tags, rest, htags, hrest, hdrop⟩ := exists_tags (frame.drop 12)
  -- the packet follows the tags which are skipped
  have hskip : ∀ {tags : List (List Byte)} {rest : List Byte}, (∀ tag ∈ tags, IsVlanTag tag) →
      Untagged rest → frame.drop 12 = tags.flatten ++ rest →
      skipVlanTags (frame.length + 1) (frame.drop 12).length (frame.drop 12) =
        some ((rest.length : ℤ), rest) := by
    intro tags rest htags hrest hdrop
    have hlength : tags.length ≤ tags.flatten.length := by
      clear hdrop
      induction tags with
      | nil => exact le_rfl
      | cons tag tags ih =>
          obtain ⟨a, b, rfl⟩ := htags tag List.mem_cons_self
          have ih := ih fun tag htag => htags tag (List.mem_cons_of_mem _ htag)
          rw [List.flatten_cons, List.length_append, List.length_cons]
          refine (Nat.add_le_add_right ih 1).trans ?_
          rw [Nat.add_comm]
          exact Nat.add_le_add_right (Nat.succ_pos _) _
    have htotal := congrArg List.length hdrop
    rw [List.length_drop, List.length_append] at htotal
    rw [hdrop]
    exact skipVlanTags_eq htags hrest (by omega)
  have hframe : ∀ packet, IsFrame frame packet ↔ 12 ≤ frame.length ∧ ∃ etherType,
      (etherType = [0x08, 0x00] ∨ etherType = [0x86, 0xdd]) ∧ rest = etherType ++ packet := by
    intro packet
    constructor
    · rintro ⟨macs, tags', etherType, hmacs, htags', htype, hframe⟩
      have hdrop' : frame.drop 12 = tags'.flatten ++ (etherType ++ packet) := by
        rw [hframe, ← hmacs, List.drop_left]
      have hsame := (hskip htags hrest hdrop).symm.trans
        (hskip htags' (untagged_etherType htype) hdrop')
      refine ⟨?_, etherType, htype, congrArg Prod.snd (Option.some.inj hsame)⟩
      rw [hframe, List.length_append, hmacs]
      exact Nat.le_add_right _ _
    · rintro ⟨hlen, etherType, htype, rfl⟩
      refine ⟨frame.take 12, tags, etherType, ?_, htags, htype, ?_⟩
      · rw [List.length_take]
        exact min_eq_left hlen
      · rw [← hdrop, List.take_append_drop]
  rw [extractUdpData]
  dsimp only
  split
  next hshort =>
      refine ⟨none, rfl, fun r => ⟨nofun, ?_⟩⟩
      rintro ⟨packet, hpacket, -⟩
      have := ((hframe packet).mp hpacket).1
      omega
  next hlong =>
      have hsub : ((frame.length : ℤ) - 12) = (frame.drop 12).length := by
        rw [List.length_drop]
        omega
      have hrestle : rest.length ≤ frame.length := by
        have htotal := congrArg List.length hdrop
        rw [List.length_drop, List.length_append] at htotal
        omega
      rw [hsub, hskip htags hrest hdrop, Option.bind_eq_bind, Option.bind_some]
      dsimp only
      split
      next hnone =>
          refine ⟨none, rfl, fun r => ⟨nofun, ?_⟩⟩
          rintro ⟨packet, hpacket, -⟩
          obtain ⟨-, etherType, htype, rfl⟩ := (hframe packet).mp hpacket
          rcases htype with rfl | rfl
          all_goals
            rw [List.length_append] at hnone
            simp at hnone
            omega
      next hsome =>
          obtain ⟨a, b, packet, rfl⟩ : ∃ a b packet, rest = a :: b :: packet := by
            rcases rest with _ | ⟨a, _ | ⟨b, packet⟩⟩
            all_goals simp only [List.length_cons, List.length_nil] at hsome
            all_goals try omega
            exact ⟨a, b, packet, rfl⟩
          have hzero : byteAt (a :: b :: packet) 0 = some a.toNat := rfl
          have hone : byteAt (a :: b :: packet) 1 = some b.toNat := rfl
          simp only [hzero, hone, Option.bind_eq_bind, Option.bind_some]
          -- the packet of the frame, if it has one
          have hcarries : ∀ packet', IsFrame frame packet' ↔
              ((a.toNat = 0x08 ∧ b.toNat = 0x00) ∨ (a.toNat = 0x86 ∧ b.toNat = 0xdd)) ∧
                packet' = packet := by
            intro packet'
            rw [hframe]
            constructor
            · rintro ⟨-, etherType, rfl | rfl, heq⟩
              · obtain ⟨ha, heq⟩ := List.cons.inj heq
                obtain ⟨hb, hpacket⟩ := List.cons.inj heq
                exact ⟨.inl ⟨congrArg BitVec.toNat ha, congrArg BitVec.toNat hb⟩, hpacket.symm⟩
              · obtain ⟨ha, heq⟩ := List.cons.inj heq
                obtain ⟨hb, hpacket⟩ := List.cons.inj heq
                exact ⟨.inr ⟨congrArg BitVec.toNat ha, congrArg BitVec.toNat hb⟩, hpacket.symm⟩
            · rintro ⟨htype, rfl⟩
              refine ⟨by omega, [a, b], ?_, rfl⟩
              have heq : ∀ {c d : Byte}, c.toNat = d.toNat → c = d := BitVec.eq_of_toNat_eq
              refine htype.imp (fun h => ?_) fun h => ?_
              · obtain rfl : a = 0x08 := heq h.1
                obtain rfl : b = 0x00 := heq h.2
                rfl
              · obtain rfl : a = 0x86 := heq h.1
                obtain rfl : b = 0xdd := heq h.2
                rfl
          split
          next hother =>
              refine ⟨none, rfl, fun r => ⟨nofun, ?_⟩⟩
              rintro ⟨packet', hpacket, -⟩
              exact absurd ((hcarries packet').mp hpacket).1 hother
          next htype =>
              have hlen : (((a :: b :: packet).length : ℤ) - 2) = packet.length := by
                rw [List.length_cons, List.length_cons]
                omega
              have hfuel : packet.length < frame.length + 1 := by
                rw [List.length_cons, List.length_cons] at hrestle
                omega
              obtain ⟨o, ho, hiff⟩ := extractPacket_spec hfuel
              rw [hlen]
              refine ⟨o, ho, fun r => (hiff r).trans ⟨fun h => ?_, ?_⟩⟩
              · exact ⟨packet, (hcarries packet).mpr ⟨not_not.mp htype, rfl⟩, h⟩
              · rintro ⟨packet', hpacket, h⟩
                exact ((hcarries packet').mp hpacket).2 ▸ h

/-- A frame with a VLAN tag, an IPv4 packet for 10.0.0.1, and two bytes for the port 123. -/
def sampleFrame : List Byte :=
  List.replicate 12 0 ++ [0x81, 0, 0, 7, 0x08, 0] ++
    ([0x45, 0, 0, 30, 0, 0, 0, 0, 64, 17, 0, 0, 10, 0, 0, 2, 10, 0, 0, 1] ++
      [0, 123, 0, 123, 0, 10, 0, 0, 0xaa, 0xbb])

example : extractUdpData sampleFrame =
    some (some ⟨.inet4 0x0a000001, 123, 2, [0xaa, 0xbb]⟩) := by
  decide

end Chrony.NtpIo
