import Chrony.Nts.Session
import Mathlib.Data.Nat.Bitwise

/-!
# The Format of NTS-KE Messages

A message is complete if it is a concatenation of records and only the last one is the end
of the message. The records are found by their lengths, which is the same in any part of the
message that contains them.

## Main results

* `complete_iff`: which byte strings are complete messages.
* `receiveAll_eq`: a complete message is received in parts of any size.
* `message_framing`: also the records are read as they were added.
-/

namespace Chrony.Nts

open Lib Bytes

/-! ### Records -/

/-- A record which can be encoded. -/
structure NewRecord.Valid (r : NewRecord) : Prop where
  nonneg : 0 ≤ r.type
  type_le : r.type ≤ 0x7fff
  body_le : r.body.length ≤ 0xffff

/-- The bytes of a record. -/
def NewRecord.encode (r : NewRecord) : List Byte := encodeRecord r.critical r.type.toNat r.body

/-- The record as it is read to a buffer. -/
def NewRecord.read (bufferLength : ℕ) (r : NewRecord) : Record :=
  ⟨r.critical, r.type.toNat, r.body.length, r.body.take bufferLength⟩

/-- The end of a message. -/
def endRecord : NewRecord := ⟨true, nkeRecordEndOfMessage, []⟩

theorem endRecord_valid : endRecord.Valid := ⟨by decide, by decide, by decide⟩

theorem length_encode (r : NewRecord) : r.encode.length = 4 + r.body.length := by
  rw [NewRecord.encode, encodeRecord, List.length_append, List.length_append, length_encode16,
    length_encode16]
  omega

/-- There are not more records than bytes. -/
theorem length_le_encode (records : List NewRecord) :
    records.length ≤ (records.flatMap NewRecord.encode).length := by
  induction records with
  | nil => exact le_rfl
  | cons r records ih =>
      rw [List.flatMap_cons, List.length_append, length_encode, List.length_cons]
      omega

/-- The critical bit and the type are in one field. -/
theorem typeField_eq (critical : Bool) {type : ℕ} (h : type < 2 ^ 15) :
    (if critical then nkeRecordCriticalBit else 0) ||| type =
      2 ^ 15 * critical.toNat + type := by
  rw [Nat.two_pow_add_eq_or_of_lt h]
  cases critical with
  | true => rfl
  | false => rfl

theorem typeField_type (n : ℕ) : n &&& 0x7fff = n % 2 ^ 15 :=
  Nat.and_two_pow_sub_one_eq_mod n 15

theorem typeField_critical (n : ℕ) : decide (n &&& nkeRecordCriticalBit ≠ 0) = n.testBit 15 := by
  rw [nkeRecordCriticalBit, Nat.one_shiftLeft, Nat.and_two_pow]
  cases n.testBit 15 with
  | true => rfl
  | false => rfl

/-- **A record is read as it was encoded**, whatever is before and after it. -/
theorem readRecord_encode {r : NewRecord} (hr : r.Valid) (before after : List Byte)
    (bufferLength : ℕ) : readRecord (before ++ (r.encode ++ after)) bufferLength before.length =
      some (r.read bufferLength, 4 + r.body.length) := by
  obtain ⟨hnonneg, htype, hbody⟩ := hr
  have hlt : r.type.toNat < 2 ^ 15 := by omega
  have hfield := typeField_eq r.critical hlt
  have hlength := length_encode r
  have hdrop : (before ++ (r.encode ++ after)).drop before.length = r.encode ++ after :=
    List.drop_left
  have hdrop₂ : (before ++ (r.encode ++ after)).drop (before.length + 2) =
      encode16 r.body.length ++ (r.body ++ after) := by
    rw [← List.drop_drop, hdrop, NewRecord.encode, encodeRecord, List.append_assoc]
    exact congrArg _ (List.append_assoc _ _ _)
  have hdrop₄ : (before ++ (r.encode ++ after)).drop (before.length + 4) = r.body ++ after := by
    rw [show before.length + 4 = before.length + 2 + 2 from rfl, ← List.drop_drop, hdrop₂]
    rfl
  have htypeField : decode16 (r.encode ++ after) = 2 ^ 15 * r.critical.toNat + r.type.toNat := by
    rw [NewRecord.encode, encodeRecord, List.append_assoc, decode16_encode16_of_lt, hfield]
    rw [hfield]
    cases r.critical <;> simp <;> omega
  have hblen : decode16 (encode16 r.body.length ++ (r.body ++ after)) = r.body.length :=
    decode16_encode16_of_lt (by omega) _
  have htotal : (before ++ (r.encode ++ after)).length =
      before.length + (4 + r.body.length) + after.length := by
    rw [List.length_append, List.length_append, hlength]
    omega
  rw [readRecord, if_neg (by omega), hdrop, hdrop₂, htypeField, hblen, if_neg (by omega)]
  refine congrArg some (Prod.ext ?_ rfl)
  rw [NewRecord.read, Record.mk.injEq]
  refine ⟨?_, ?_, rfl, ?_⟩
  · rw [typeField_critical, Nat.testBit_two_pow_mul_add _ hlt]
    cases r.critical <;> rfl
  · rw [typeField_type, Nat.mul_add_mod, Nat.mod_eq_of_lt hlt]
  · rw [slice, hdrop₄, ← List.take_take, List.take_left]

/-- **What is read was encoded.** -/
theorem encode_of_readRecord {data : List Byte} {bufferLength p n : ℕ} {record : Record}
    (h : readRecord data bufferLength p = some (record, n)) : ∃ r : NewRecord, r.Valid ∧
      record = r.read bufferLength ∧ n = 4 + r.body.length ∧
      ∃ after, data.drop p = r.encode ++ after := by
  rw [readRecord] at h
  split at h
  · cases h
  next hheader =>
      dsimp only at h
      split at h
      · cases h
      next hlength =>
          obtain ⟨rfl, rfl⟩ := Prod.mk.inj (Option.some.inj h)
          obtain ⟨rest, htype, hrest⟩ := exists_eq_encode16 (data.drop p)
            (by rw [List.length_drop]; omega)
          rw [List.drop_drop] at hrest
          obtain ⟨rest', hblen, hrest'⟩ := exists_eq_encode16 rest
            (by rw [hrest, List.length_drop]; omega)
          rw [hrest, List.drop_drop] at hrest'
          have hfieldLt := decode16_lt (data.drop p)
          have hblenLt := decode16_lt (data.drop (p + 2))
          rw [← hrest] at hlength hblenLt ⊢
          generalize decode16 (data.drop p) = field at htype hfieldLt
          generalize decode16 rest = blen at hblen hlength hblenLt
          have hbody : (rest'.take blen).length = blen := by
            rw [List.length_take, hrest', List.length_drop]
            omega
          have hmod := Nat.mod_lt field (Nat.two_pow_pos 15)
          refine ⟨⟨field.testBit 15, (field % 2 ^ 15 : ℕ), rest'.take blen⟩,
            ⟨Int.natCast_nonneg _, by dsimp only; omega, by dsimp only; omega⟩, ?_, ?_,
            rest'.drop blen, ?_⟩
          · rw [NewRecord.read, Record.mk.injEq]
            refine ⟨typeField_critical field, typeField_type field, hbody.symm, ?_⟩
            rw [List.take_take, slice, hrest']
          · rw [hbody]
          · have hfield : 2 ^ 15 * (field.testBit 15).toNat + field % 2 ^ 15 = field := by
              rw [Nat.testBit_eq_decide_div_mod_eq]
              rcases Nat.mod_two_eq_zero_or_one (field / 2 ^ 15) with h | h
              · rw [h]
                simp
                omega
              · rw [h]
                simp
                omega
            rw [NewRecord.encode, encodeRecord, Int.toNat_natCast, typeField_eq _ hmod, hfield,
              hbody, List.append_assoc, List.append_assoc, List.take_append_drop, ← hblen]
            exact htype

theorem readRecord_bounds {data : List Byte} {bufferLength p n : ℕ} {record : Record}
    (h : readRecord data bufferLength p = some (record, n)) : 0 < n ∧ p + n ≤ data.length := by
  rw [readRecord] at h
  split at h
  · cases h
  · dsimp only at h
    split at h
    · cases h
    · obtain ⟨-, rfl⟩ := Prod.mk.inj (Option.some.inj h)
      omega

/-- **The records of a concatenation.** -/
theorem scan_encode (records : List NewRecord) (hvalid : ∀ r ∈ records, r.Valid)
    (before after : List Byte) (bufferLength : ℕ) :
    Scan (readRecord (before ++ (records.flatMap NewRecord.encode ++ after)) bufferLength)
      before.length (records.map (NewRecord.read bufferLength))
      (before.length + (records.flatMap NewRecord.encode).length) := by
  induction records generalizing before with
  | nil => exact .nil _
  | cons r records ih =>
      have hr := hvalid r List.mem_cons_self
      have hih := ih (fun r hr => hvalid r (List.mem_cons_of_mem _ hr)) (before ++ r.encode)
      have heq : before ++ ((r :: records).flatMap NewRecord.encode ++ after) =
          (before ++ r.encode) ++ (records.flatMap NewRecord.encode ++ after) := by
        rw [List.flatMap_cons, List.append_assoc, List.append_assoc]
      rw [← heq, List.length_append, length_encode] at hih
      refine .cons ?_ (p := before.length) (n := 4 + r.body.length) ?_
      · rw [List.flatMap_cons, List.append_assoc]
        exact readRecord_encode hr ..
      · rw [Nat.add_assoc] at hih
        rw [List.flatMap_cons, List.length_append, length_encode, ← List.flatMap_cons]
        exact hih

/-- **Records which are read are a concatenation.** -/
theorem encode_of_scan {data : List Byte} {bufferLength p q : ℕ} {l : List Record}
    (h : Scan (readRecord data bufferLength) p l q) : ∃ records : List NewRecord,
      (∀ r ∈ records, r.Valid) ∧ l = records.map (NewRecord.read bufferLength) ∧
      data.drop p = records.flatMap NewRecord.encode ++ data.drop q := by
  induction h with
  | nil => exact ⟨[], nofun, rfl, rfl⟩
  | @cons p q n record l hrecord h ih =>
      obtain ⟨r, hr, rfl, rfl, after, hafter⟩ := encode_of_readRecord hrecord
      obtain ⟨records, hvalid, rfl, hdrop⟩ := ih
      refine ⟨r :: records, fun r' hr' => ?_, rfl, ?_⟩
      · rcases List.mem_cons.mp hr' with rfl | hr'
        · exact hr
        · exact hvalid r' hr'
      · have hnext : data.drop (p + (4 + r.body.length)) = after := by
          rw [← List.drop_drop, hafter, ← length_encode, List.drop_left]
        rw [List.flatMap_cons, List.append_assoc, ← hdrop, hnext]
        exact hafter

/-! ### The check of the format -/

/-- The ends of a message are valid, and there is at most one, after `ends` others. -/
def endsValid : ℕ → List Record → Prop
  | _, [] => True
  | ends, record :: l =>
      if record.type = nkeRecordEndOfMessage then
        (record.critical = true ∧ record.bodyLength = 0 ∧ ends = 0) ∧ endsValid (ends + 1) l
      else endsValid ends l

/-- **The loop over the records.** -/
theorem checkRecords_eq {data : List Byte} {p q : ℕ} {l : List Record} (complete : Bool)
    (h : Scan (readRecord data 0) p l q) (hq : readRecord data 0 q = none) {fuel : ℕ}
    (hfuel : l.length ≤ fuel) (type : Option ℕ) (ends : ℕ) :
    (endsValid ends l → checkRecords fuel ⟨data, p, complete⟩ type ends =
      some (⟨data, q, complete⟩, (l.getLast?.map Record.type).or type)) ∧
    (¬endsValid ends l → checkRecords fuel ⟨data, p, complete⟩ type ends = none) := by
  induction h generalizing fuel type ends with
  | nil =>
      refine ⟨fun _ => ?_, fun hends => absurd trivial hends⟩
      cases fuel with
      | zero => rfl
      | succ fuel =>
          rw [checkRecords, getRecord, hq]
          rfl
  | @cons p q n record l hrecord h ih =>
      cases fuel with
      | zero => cases hfuel
      | succ fuel =>
          have hlast : ((record :: l).getLast?.map Record.type).or type =
              (l.getLast?.map Record.type).or (some record.type) := by
            cases l with
            | nil => rfl
            | cons r l =>
                rw [List.getLast?_cons_cons]
                obtain ⟨x, hx⟩ := Option.ne_none_iff_exists'.mp
                  (mt List.getLast?_eq_none_iff.mp (List.cons_ne_nil r l))
                rw [hx]
                rfl
          have hstep := ih hq (Nat.le_of_succ_le_succ hfuel) (some record.type)
          rw [checkRecords, getRecord, hrecord, hlast]
          simp only [Option.map_some]
          rw [endsValid]
          by_cases htype : record.type = nkeRecordEndOfMessage
          · rw [if_pos htype, if_pos htype]
            by_cases hend : record.critical = true ∧ record.bodyLength = 0 ∧ ends = 0
            · obtain ⟨hcritical, hlength, hends⟩ := hend
              rw [if_neg (by simp [hcritical, hlength, hends])]
              refine ⟨fun h => (hstep (ends + 1)).1 h.2, fun h => (hstep (ends + 1)).2 fun h' => ?_⟩
              exact h ⟨⟨hcritical, hlength, hends⟩, h'⟩
            · rw [if_pos]
              · exact ⟨fun h => absurd h.1 hend, fun _ => rfl⟩
              · by_contra hnot
                rw [not_or, not_or] at hnot
                refine hend ⟨by simpa using hnot.1, not_not.mp hnot.2.1, ?_⟩
                exact Nat.eq_zero_of_not_pos hnot.2.2
          · rw [if_neg htype, if_neg htype]
            exact hstep ends

/-- **The check of a message by its records.** -/
theorem checkMessageFormat_eq {data : List Byte} {l : List Record} {q : ℕ}
    (h : Scan (readRecord data 0) 0 l q) (hq : readRecord data 0 q = none) {message : Message}
    (hdata : message.data = data) (eof : Bool) :
    (¬endsValid 0 l → checkMessageFormat message eof = (⟨data, 0, false⟩, false)) ∧
    (endsValid 0 l → (q < data.length ∨ (l.getLast?.map Record.type) ≠ some nkeRecordEndOfMessage) →
      checkMessageFormat message eof = (⟨data, q, false⟩, !eof)) ∧
    (endsValid 0 l → q = data.length → l.getLast?.map Record.type = some nkeRecordEndOfMessage →
      checkMessageFormat message eof = (⟨data, q, true⟩, true)) := by
  subst hdata
  have hfuel : l.length ≤ message.data.length := by
    have hle := h.length_le fun p a n ha => (readRecord_bounds ha).1
    cases hl : l with
    | nil => exact Nat.zero_le _
    | cons a l' =>
        obtain ⟨l₀, a', p', n, -, -, ha, hn⟩ := h.exists_last (hl ▸ List.cons_ne_nil a l')
        have hbounds := readRecord_bounds ha
        rw [← hl]
        omega
  obtain ⟨hvalid, hnot⟩ := checkRecords_eq false h hq hfuel none 0
  have hreset : ({ resetMessageParsing message with complete := false } : Message) =
      ⟨message.data, 0, false⟩ := rfl
  refine ⟨fun hends => ?_, fun hends hor => ?_, fun hends heq htype => ?_⟩
  · rw [checkMessageFormat, hreset]
    dsimp only
    rw [hnot hends]
  · rw [checkMessageFormat, hreset]
    dsimp only
    rw [hvalid hends]
    dsimp only
    split
    · rfl
    next hlength =>
        rw [Option.or_none, if_pos]
        exact hor.resolve_left fun hlt => hlength (.inr hlt)
  · have hpos : message.data.length ≠ 0 := by
      intro hzero
      cases h with
      | nil => cases htype
      | cons ha h =>
          have hbounds := readRecord_bounds ha
          omega
    rw [checkMessageFormat, hreset]
    dsimp only
    rw [hvalid hends]
    dsimp only
    rw [if_neg (by omega), Option.or_none, if_neg (not_not.mpr htype)]

theorem endsValid_of_ne {l : List Record} (h : ∀ record ∈ l, record.type ≠ nkeRecordEndOfMessage)
    (ends : ℕ) : endsValid ends l := by
  induction l with
  | nil => trivial
  | cons record l ih =>
      rw [endsValid, if_neg (h record List.mem_cons_self)]
      exact ih fun r hr => h r (List.mem_cons_of_mem _ hr)

/-- The last record is the end of the message. -/
theorem endsValid_append {l : List Record} {e : Record} (he : e.type = nkeRecordEndOfMessage)
    (ends : ℕ) : endsValid ends (l ++ [e]) ↔
      ends = 0 ∧ (∀ record ∈ l, record.type ≠ nkeRecordEndOfMessage) ∧ e.critical = true ∧
        e.bodyLength = 0 := by
  induction l generalizing ends with
  | nil =>
      rw [List.nil_append, endsValid, if_pos he, endsValid, and_true]
      exact ⟨fun ⟨hcritical, hlength, hends⟩ => ⟨hends, nofun, hcritical, hlength⟩,
        fun ⟨hends, _, hcritical, hlength⟩ => ⟨hcritical, hlength, hends⟩⟩
  | cons record l ih =>
      rw [List.cons_append, endsValid, List.forall_mem_cons]
      split
      next htype =>
          rw [ih]
          exact ⟨fun h => absurd h.2.1 (Nat.succ_ne_zero _), fun h => absurd htype h.2.1.1⟩
      next htype =>
          rw [ih]
          exact ⟨fun ⟨hends, hl, h⟩ => ⟨hends, ⟨htype, hl⟩, h⟩,
            fun ⟨hends, ⟨_, hl⟩, h⟩ => ⟨hends, hl, h⟩⟩

/-- **A complete message**: a concatenation of records of which only the last one is an end of
the message, which is critical and has no body. -/
def IsComplete (data : List Byte) : Prop :=
  ∃ records : List NewRecord, (∀ r ∈ records, r.Valid ∧ r.type ≠ nkeRecordEndOfMessage) ∧
    data = (records ++ [endRecord]).flatMap NewRecord.encode

theorem read_type_ne {r : NewRecord} (hr : r.Valid ∧ r.type ≠ nkeRecordEndOfMessage)
    (bufferLength : ℕ) : (r.read bufferLength).type ≠ nkeRecordEndOfMessage := by
  intro h
  have hnonneg := hr.1.nonneg
  refine hr.2 ?_
  rw [← Int.toNat_of_nonneg hnonneg]
  exact congrArg Nat.cast h

theorem eq_endRecord {r : NewRecord} (hr : r.Valid) {bufferLength : ℕ}
    (htype : (r.read bufferLength).type = nkeRecordEndOfMessage)
    (hcritical : (r.read bufferLength).critical = true)
    (hlength : (r.read bufferLength).bodyLength = 0) : r = endRecord := by
  have hnonneg := hr.nonneg
  obtain ⟨critical, type, body⟩ := r
  have hzero : type.toNat = 0 := htype
  rw [endRecord, NewRecord.mk.injEq]
  refine ⟨hcritical, ?_, List.length_eq_zero_iff.mp hlength⟩
  exact Int.le_antisymm (Int.toNat_eq_zero.mp hzero) hnonneg

/-- The records of a complete message. -/
theorem scan_complete {records : List NewRecord}
    (hrecords : ∀ r ∈ records, r.Valid ∧ r.type ≠ nkeRecordEndOfMessage) (bufferLength : ℕ) :
    Scan (readRecord ((records ++ [endRecord]).flatMap NewRecord.encode) bufferLength) 0
      (records.map (NewRecord.read bufferLength) ++ [endRecord.read bufferLength])
      ((records ++ [endRecord]).flatMap NewRecord.encode).length := by
  have hscan := scan_encode (records ++ [endRecord]) (fun r hr => ?_) [] [] bufferLength
  · rw [List.nil_append, List.append_nil, List.length_nil, Nat.zero_add, List.map_append] at hscan
    exact hscan
  · rcases List.mem_append.mp hr with hr | hr
    · exact (hrecords r hr).1
    · obtain rfl := List.mem_singleton.mp hr
      exact endRecord_valid

theorem readRecord_length (data : List Byte) (bufferLength : ℕ) :
    readRecord data bufferLength data.length = none :=
  if_pos (by omega)

theorem checkMessageFormat_of_complete (message : Message) (hdata : IsComplete message.data)
    (eof : Bool) : checkMessageFormat message eof =
      (⟨message.data, message.data.length, true⟩, true) := by
  obtain ⟨records, hrecords, hdata⟩ := hdata
  have hscan := scan_complete hrecords 0
  rw [← hdata] at hscan
  obtain ⟨-, -, hcomplete⟩ := checkMessageFormat_eq hscan (readRecord_length _ _) rfl eof
  have hends : endsValid 0 (records.map (NewRecord.read 0) ++ [endRecord.read 0]) := by
    refine (endsValid_append rfl 0).mpr ⟨rfl, fun record hrecord => ?_, rfl, rfl⟩
    obtain ⟨r, hr, rfl⟩ := List.mem_map.mp hrecord
    exact read_type_ne (hrecords r hr) 0
  refine hcomplete hends rfl ?_
  rw [List.getLast?_concat]
  rfl

/-- **Which byte strings are complete messages.** -/
theorem complete_iff (message : Message) (eof : Bool) :
    (checkMessageFormat message eof).1.complete = true ↔ IsComplete message.data := by
  constructor
  · intro hcomplete
    obtain ⟨l, q, hscan, hq⟩ := Scan.exists_maximal (readRecord message.data 0)
      (fun p a n h => readRecord_bounds h) 0
    obtain ⟨hnot, hwait, -⟩ := checkMessageFormat_eq hscan hq rfl eof
    by_cases hends : endsValid 0 l
    · by_cases hor : q < message.data.length ∨
        l.getLast?.map Record.type ≠ some nkeRecordEndOfMessage
      · rw [hwait hends hor] at hcomplete
        cases hcomplete
      · rw [not_or, not_not] at hor
        obtain ⟨e, he, htype⟩ := Option.map_eq_some_iff.mp hor.2
        obtain ⟨l₀, rfl⟩ := List.getLast?_eq_some_iff.mp he
        rw [endsValid_append htype] at hends
        obtain ⟨-, hl₀, hcritical, hlength⟩ := hends
        obtain ⟨records, hvalid, hmap, hdrop⟩ := encode_of_scan hscan
        obtain ⟨records₀, last, rfl, hmap₀, hlast⟩ := List.map_eq_append_iff.mp hmap.symm
        obtain ⟨r, rest, rfl, rfl, hnil⟩ := List.map_eq_cons_iff.mp hlast
        obtain rfl := List.map_eq_nil_iff.mp hnil
        have hr : r = endRecord := eq_endRecord
          (hvalid r (List.mem_append_right _ List.mem_cons_self)) htype hcritical hlength
        subst hr
        refine ⟨records₀, fun r hr => ⟨hvalid r (List.mem_append_left _ hr), fun hzero => ?_⟩, ?_⟩
        · refine hl₀ (r.read 0) ?_ ?_
          · rw [← hmap₀]
            exact List.mem_map_of_mem hr
          · exact (congrArg Int.toNat hzero)
        · rw [List.drop_zero, List.drop_eq_nil_of_le (by omega), List.append_nil] at hdrop
          exact hdrop
    · rw [hnot hends] at hcomplete
      cases hcomplete
  · intro hdata
    rw [checkMessageFormat_of_complete message hdata]

/-! ### Parts of a message -/

/-- A record which is read from a part of the data. -/
theorem readRecord_of_take {data : List Byte} {bufferLength p n k : ℕ} {record : Record}
    (h : readRecord (data.take k) bufferLength p = some (record, n)) :
    readRecord data bufferLength p = some (record, n) := by
  obtain ⟨-, hn⟩ := readRecord_bounds h
  rw [List.length_take] at hn
  rw [readRecord, List.length_take] at h
  split at h
  · cases h
  · rw [decode16_drop_take (by omega), decode16_drop_take (by omega)] at h
    dsimp only at h
    split at h
    · cases h
    · rw [slice_take (by omega)] at h
      rw [readRecord, if_neg (by omega)]
      dsimp only
      rw [if_neg (by omega)]
      exact h

/-- **A part of a complete message is neither complete nor rejected.** -/
theorem checkMessageFormat_prefix {data : List Byte} (hdata : IsComplete data) {k : ℕ}
    (hk : k < data.length) (message : Message) (hmessage : message.data = data.take k) :
    ∃ q, checkMessageFormat message false = (⟨data.take k, q, false⟩, true) := by
  obtain ⟨records, hrecords, rfl⟩ := hdata
  have hfull := scan_complete hrecords 0
  obtain ⟨l, q, hscan, hq⟩ := Scan.exists_maximal
    (readRecord (((records ++ [endRecord]).flatMap NewRecord.encode).take k) 0)
    (fun p a n h => readRecord_bounds h) 0
  have hqk : q ≤ k := by
    cases hl : l with
    | nil =>
        subst hl
        cases hscan
        exact Nat.zero_le k
    | cons a l' =>
        obtain ⟨l₀, a', p', n, -, -, ha, hn⟩ := hscan.exists_last (hl ▸ List.cons_ne_nil a l')
        have hbounds := readRecord_bounds ha
        rw [List.length_take] at hbounds
        omega
  obtain ⟨l₁, heq, hl₁⟩ := hfull.isPrefix (readRecord_length _ _)
    (hscan.congr fun p a n _ _ h => readRecord_of_take h)
  have hne : l₁ ≠ [] := by
    rintro rfl
    cases hl₁
    omega
  -- the end of the message is not among the records which were read
  have htypes : ∀ record ∈ l, record.type ≠ nkeRecordEndOfMessage := by
    intro record hrecord
    obtain ⟨l₂, e, rfl⟩ := (List.eq_nil_or_concat l₁).resolve_left hne
    rw [List.concat_eq_append, ← List.append_assoc] at heq
    have hmem : record ∈ records.map (NewRecord.read 0) := by
      rw [List.append_inj_left' heq rfl]
      exact List.mem_append_left _ hrecord
    obtain ⟨r, hr, rfl⟩ := List.mem_map.mp hmem
    exact read_type_ne (hrecords r hr) 0
  refine ⟨q, (checkMessageFormat_eq hscan hq hmessage false).2.1 (endsValid_of_ne htypes 0) ?_⟩
  refine .inr fun hlast => ?_
  obtain ⟨e, he, htype⟩ := Option.map_eq_some_iff.mp hlast
  exact htypes e (List.mem_of_getLast? he) htype

/-- The message is received up to its last byte. -/
theorem receiveChunks_eq {message : Message} {chunks : List (List Byte)}
    (hne : ∀ chunk ∈ chunks, chunk ≠ [])
    (hle : (message.data ++ chunks.flatten).length ≤ nkeMaxMessageLength) :
    receiveChunks message chunks =
      some { message with data := message.data ++ chunks.flatten } := by
  induction chunks generalizing message with
  | nil =>
      rw [List.flatten_nil, List.append_nil]
      rfl
  | cons chunk chunks ih =>
      have hpos := List.length_pos_iff.mpr (hne chunk List.mem_cons_self)
      rw [List.flatten_cons, ← List.append_assoc] at hle ⊢
      rw [List.length_append, List.length_append] at hle
      rw [receiveChunks, if_neg (by omega)]
      refine ih (fun c hc => hne c (List.mem_cons_of_mem _ hc)) ?_
      rw [List.length_append, List.length_append]
      exact hle

/-- The data of a call of `handle_event` which is not at the end of the connection. -/
structure Input.Valid (input : Input) : Prop where
  chunks : ∀ chunk ∈ input.chunks, chunk ≠ []
  some_chunk : input.status = .success → input.chunks ≠ []
  not_failed : input.status ≠ .failed

theorem Input.Valid.not_eof {input : Input} (h : input.Valid) (hstatus : input.status = .success) :
    decide (input.chunks.getLastD [] = []) = false := by
  have hne := h.some_chunk hstatus
  rw [List.getLastD_eq_getLast?, List.getLast?_eq_some_getLast hne, Option.getD_some]
  exact decide_eq_false (h.chunks _ (List.getLast_mem hne))

/-- One call for a part of a complete message. -/
theorem handleReceive_prefix {data : List Byte} (hdata : IsComplete data)
    (hle : data.length ≤ nkeMaxMessageLength) {message : Message} {input : Input}
    (hinput : input.Valid) {rest : List Byte} (hrest : rest ≠ [])
    (hmessage : message.data ++ input.chunks.flatten ++ rest = data) :
    ∃ message', handleReceive message input = (message', .wait) ∧
      message'.data = message.data ++ input.chunks.flatten := by
  have hpos := List.length_pos_iff.mpr hrest
  have hlength := congrArg List.length hmessage
  rw [List.length_append] at hlength
  rw [handleReceive, receiveChunks_eq hinput.chunks (by omega)]
  dsimp only
  cases hstatus : input.status with
  | againInput =>
      dsimp only
      rw [if_neg (by omega)]
      exact ⟨_, rfl, rfl⟩
  | failed => exact absurd hstatus hinput.not_failed
  | success =>
      obtain ⟨q, hcheck⟩ := checkMessageFormat_prefix hdata
        (k := (message.data ++ input.chunks.flatten).length) (by omega)
        { message with data := message.data ++ input.chunks.flatten }
          (by rw [← hmessage, List.take_left])
      dsimp only
      rw [hinput.not_eof hstatus, hcheck]
      refine ⟨_, rfl, ?_⟩
      rw [← hmessage]
      exact List.take_left

/-- The call for the last part of a complete message. -/
theorem handleReceive_last {data : List Byte} (hdata : IsComplete data)
    (hle : data.length ≤ nkeMaxMessageLength) {message : Message} {input : Input}
    (hinput : input.Valid) (hstatus : input.status = .success)
    (hmessage : message.data ++ input.chunks.flatten = data) :
    (handleReceive message input).2 = .message := by
  subst hmessage
  have hcheck := checkMessageFormat_of_complete
    { message with data := message.data ++ input.chunks.flatten } hdata false
  rw [handleReceive, receiveChunks_eq hinput.chunks hle]
  dsimp only
  rw [hstatus, hinput.not_eof hstatus]
  dsimp only
  rw [hcheck]
  rfl

/-- **A complete message is received in parts of any size.** -/
theorem receiveAll_eq {data : List Byte} (hdata : IsComplete data)
    (hle : data.length ≤ nkeMaxMessageLength) {message : Message} {inputs : List Input}
    {last : Input} (hinputs : ∀ input ∈ inputs, input.Valid) (hlast : last.Valid)
    (hstatus : last.status = .success)
    (hmessage : message.data ++ (inputs ++ [last]).flatMap (·.chunks.flatten) = data) :
    receiveAll message (inputs ++ [last]) =
      List.replicate inputs.length .wait ++ [.message] := by
  induction inputs generalizing message with
  | nil =>
      rw [List.nil_append, List.flatMap_singleton] at hmessage
      have hreceive : (handleReceive message last).2 = .message :=
        handleReceive_last hdata hle hlast hstatus hmessage
      rw [List.nil_append, receiveAll, hreceive]
      rfl
  | cons input inputs ih =>
      obtain ⟨hinput, hinputs⟩ := List.forall_mem_cons.mp hinputs
      rw [List.cons_append, List.flatMap_cons, ← List.append_assoc] at hmessage
      have hrest : (inputs ++ [last]).flatMap (·.chunks.flatten) ≠ [] := by
        rw [List.flatMap_append, List.flatMap_singleton]
        refine List.append_ne_nil_of_right_ne_nil _ fun hnil => ?_
        rw [List.flatten_eq_nil_iff] at hnil
        obtain ⟨chunk, hchunk⟩ := List.exists_mem_of_ne_nil _ (hlast.some_chunk hstatus)
        exact hlast.chunks chunk hchunk (hnil chunk hchunk)
      obtain ⟨message', hreceive, hmessage'⟩ := handleReceive_prefix hdata hle hinput hrest hmessage
      rw [List.cons_append, receiveAll, hreceive, if_pos rfl, ih hinputs]
      · rfl
      · rw [hmessage']
        exact hmessage

/-! ### Building and reading of messages -/

/-- **A record is added to the end of a message, or the message is unchanged.** -/
theorem nksnAddRecord_cases {session session' : Session} {r : NewRecord} {added : Bool}
    (h : nksnAddRecord session r.critical r.type r.body = .ok (session', added)) :
    (added = false ∧ session' = session) ∨
      (added = true ∧ r.Valid ∧ r.type ≠ nkeRecordEndOfMessage ∧
        session' = { session with
          message := { session.message with data := session.message.data ++ r.encode } }) := by
  rw [nksnAddRecord] at h
  split at h
  · cases h
  · split at h
    · cases h
    next htype =>
        rw [addRecord] at h
        split at h
        · obtain ⟨rfl, rfl⟩ := Prod.mk.inj (Except.ok.inj h)
          exact .inl ⟨rfl, rfl⟩
        next hvalid =>
            obtain ⟨rfl, rfl⟩ := Prod.mk.inj (Except.ok.inj h)
            refine .inr ⟨rfl, ⟨?_, ?_, ?_⟩, htype, rfl⟩
            · omega
            · omega
            · omega

theorem addRecords_eq {session session' : Session} {records : List NewRecord}
    (h : addRecords session records = .ok (session', true)) :
    (∀ r ∈ records, r.Valid ∧ r.type ≠ nkeRecordEndOfMessage) ∧
      session' = { session with message := { session.message with
        data := session.message.data ++ records.flatMap NewRecord.encode } } := by
  induction records generalizing session with
  | nil =>
      obtain ⟨rfl, -⟩ := Prod.mk.inj (Except.ok.inj h)
      refine ⟨nofun, ?_⟩
      rw [List.flatMap_nil, List.append_nil]
  | cons r records ih =>
      obtain ⟨⟨session₁, added⟩, hadd, h⟩ := bind_eq_ok_iff.mp h
      rcases nksnAddRecord_cases hadd with ⟨rfl, -⟩ | ⟨rfl, hvalid, htype, rfl⟩
      · cases h
      · obtain ⟨hrecords, rfl⟩ := ih h
        refine ⟨List.forall_mem_cons.mpr ⟨⟨hvalid, htype⟩, hrecords⟩, ?_⟩
        rw [List.flatMap_cons, List.append_assoc]

theorem endMessage_eq {session session' : Session}
    (h : endMessage session = .ok (session', true)) :
    session'.message =
      ⟨session.message.data ++ endRecord.encode, session.message.parsed, true⟩ := by
  rw [endMessage, addRecord] at h
  split at h
  · cases h
  · split at h
    · cases h
    · obtain ⟨rfl, -⟩ := Prod.mk.inj (Except.ok.inj h)
      rfl

/-- **A message which is built is complete.** -/
theorem buildMessage_eq {session session' : Session} {records : List NewRecord}
    (h : buildMessage session records = .ok (session', true)) :
    (∀ r ∈ records, r.Valid ∧ r.type ≠ nkeRecordEndOfMessage) ∧
      session'.message = ⟨(records ++ [endRecord]).flatMap NewRecord.encode, 0, true⟩ := by
  obtain ⟨⟨session₁, added⟩, hadd, h⟩ := bind_eq_ok_iff.mp h
  cases added with
  | false => cases h
  | true =>
      obtain ⟨hrecords, rfl⟩ := addRecords_eq hadd
      rw [if_pos rfl] at h
      refine ⟨hrecords, (endMessage_eq h).trans ?_⟩
      rw [List.flatMap_append, List.flatMap_singleton]
      rfl

/-- Reading of the records from a position. -/
theorem getRecords_eq {session : Session} {bufferLength q : ℕ} {l : List Record} {e : Record}
    (hcomplete : session.message.complete = true)
    (hscan : Scan (readRecord session.message.data bufferLength) session.message.parsed
      (l ++ [e]) q) (hl : ∀ record ∈ l, record.type ≠ nkeRecordEndOfMessage)
    (he : e.type = nkeRecordEndOfMessage) {fuel : ℕ} (hfuel : l.length < fuel) :
    getRecords bufferLength fuel session = .ok l := by
  induction l generalizing session fuel with
  | nil =>
      cases fuel with
      | zero => cases hfuel
      | succ fuel =>
          cases hscan with
          | cons ha _ =>
              rw [getRecords, nksnGetRecord, hcomplete, getRecord, ha]
              simp [he, bind, Except.bind]
  | cons record l ih =>
      cases fuel with
      | zero => cases hfuel
      | succ fuel =>
          obtain ⟨htype, hl⟩ := List.forall_mem_cons.mp hl
          cases hscan with
          | @cons _ _ n _ _ ha hscan =>
              rw [getRecords, nksnGetRecord, hcomplete, getRecord, ha]
              have hih := @ih { session with message :=
                { session.message with parsed := session.message.parsed + n } } hcomplete hscan hl
                fuel (Nat.lt_of_succ_lt_succ hfuel)
              simp [htype, bind, Except.bind, hih]

/-- The records of a complete message are returned by the first calls. -/
theorem getRecords_complete {records : List NewRecord}
    (hrecords : ∀ r ∈ records, r.Valid ∧ r.type ≠ nkeRecordEndOfMessage) {session : Session}
    (hmessage : session.message =
      ⟨(records ++ [endRecord]).flatMap NewRecord.encode, 0, true⟩)
    (bufferLength : ℕ) {fuel : ℕ} (hfuel : records.length < fuel) :
    getRecords bufferLength fuel session = .ok (records.map (NewRecord.read bufferLength)) := by
  have hscan := scan_complete hrecords bufferLength
  refine getRecords_eq ?_ ?_ (e := endRecord.read bufferLength)
    (q := ((records ++ [endRecord]).flatMap NewRecord.encode).length) (fun record hrecord => ?_)
    rfl ?_
  · exact congrArg Message.complete hmessage
  · rw [hmessage]
    exact hscan
  · obtain ⟨r, hr, rfl⟩ := List.mem_map.mp hrecord
    exact read_type_ne (hrecords r hr) bufferLength
  · rw [List.length_map]
    exact hfuel

/-- **The framing of NTS-KE messages.**
- A byte string is a complete message if and only if it is a concatenation of records of
  which only the last one is a valid end of the message.
- No proper part of a complete message is rejected or complete, and a complete message is
  received if it comes in parts of any size.
- The records of a message which was built are returned as they were added. A record which
  could not be added does not change the message. -/
theorem message_framing :
    (∀ message eof, (checkMessageFormat message eof).1.complete = true ↔
      IsComplete message.data) ∧
    (∀ data, IsComplete data → ∀ k < data.length, ∀ message : Message,
      message.data = data.take k →
        (checkMessageFormat message false).1.complete = false ∧
          (checkMessageFormat message false).2 = true) ∧
    (∀ data, IsComplete data → data.length ≤ nkeMaxMessageLength → ∀ inputs last,
      (∀ input ∈ inputs, Input.Valid input) → last.Valid → last.status = .success →
      (inputs ++ [last]).flatMap (·.chunks.flatten) = data →
        receiveAll resetMessage (inputs ++ [last]) =
          List.replicate inputs.length .wait ++ [.message]) ∧
    (∀ session records session', buildMessage session records = .ok (session', true) →
      ∀ bufferLength fuel, records.length < fuel →
        getRecords bufferLength fuel
            { session' with message := resetMessageParsing session'.message } =
          .ok (records.map (NewRecord.read bufferLength))) ∧
    (∀ session session' critical type body,
      nksnAddRecord session critical type body = .ok (session', false) → session' = session) := by
  refine ⟨complete_iff, fun data hdata k hk message hmessage => ?_,
    fun data hdata hle inputs last hinputs hlast hstatus hmessage =>
      receiveAll_eq hdata hle hinputs hlast hstatus hmessage,
    fun session records session' h bufferLength fuel hfuel => ?_,
    fun session session' critical type body h => ?_⟩
  · obtain ⟨q, hcheck⟩ := checkMessageFormat_prefix hdata hk message hmessage
    rw [hcheck]
    exact ⟨rfl, rfl⟩
  · obtain ⟨hrecords, hmessage⟩ := buildMessage_eq h
    refine getRecords_complete hrecords ?_ bufferLength hfuel
    rw [hmessage]
    rfl
  · rcases nksnAddRecord_cases (r := ⟨critical, type, body⟩) h with ⟨-, rfl⟩ | ⟨hadded, -⟩
    · rfl
    · cases hadded

end Chrony.Nts
