import Chrony.Nts.ClientInvariant

/-!
# Runs of the NTS Client

The calls of the functions of an NTS client in any order, with any results of the other parts
of the program and any received packets. A run records the cookies in the order in which they
were obtained and sent, and the requests and the responses.

## Main results

* `run_client`: cookies are sent in the order in which they were obtained, at most once, and
  at most one response is accepted for a request.
-/

namespace Chrony.Nts

open Lib Bytes Ntp

/-- What happened in a run. -/
inductive ClientEvent
  /-- A call of `NNC_PrepareForAuth`. -/
  | prepared (uniqId : Fin ntsMinUniqIdLength → Byte)
  /-- A request was generated. -/
  | request (uniqId : Fin ntsMinUniqIdLength → Byte) (cookie : List Byte)
  /-- A response was accepted. -/
  | response
  deriving DecidableEq

/-- A client with its history. -/
structure ClientRun where
  inst : NncInstance
  obtained : List (List Byte)
  sent : List (List Byte)
  events : List ClientEvent

/-- Calls of the functions. -/
inductive ClientAction
  | prepare (input : PrepareInput)
  | generate (packet : List Byte) (info : PacketInfo)
  | check (packet : List Byte) (info : PacketInfo)

/-- A new instance. -/
def ClientRun.start (ntsAddress : RemoteAddress) (name : List Char) (ntpPort : BitVec 16) :
    ClientRun :=
  ⟨.create ntsAddress name ntpPort, [], [], []⟩

/-- The cookies which come with a new context. -/
def newContextCookies (before after : NncInstance) : List (List Byte) :=
  if after.contextId = before.contextId then [] else after.unused

/-- **A call of a function.** -/
def ClientRun.step (siv : Siv) (config : ClientConfig) (c : ClientRun) :
    ClientAction → Except AssertFailed ClientRun
  | .prepare input => do
      let r ← prepareForAuth siv config c.inst input
      .ok { c with
        inst := r.1
        obtained := c.obtained ++ newContextCookies c.inst r.1
        events := c.events ++ [.prepared input.uniqId] }
  | .generate packet info =>
      let r := generateRequestAuth siv c.inst packet info
      match r.2 with
      | none => .ok { c with inst := r.1 }
      | some _ =>
          let cookie := c.inst.cookies c.inst.cookieIndex
          .ok { c with
            inst := r.1
            sent := c.sent ++ [cookie]
            events := c.events ++ [.request c.inst.uniqId cookie] }
  | .check packet info =>
      let r := checkResponseAuth siv c.inst packet info
      if r.2 then
        -- the cookies after those which were already in the buffer
        .ok { c with
          inst := r.1
          obtained := c.obtained ++ r.1.unused.drop c.inst.numCookies
          events := c.events ++ [.response] }
      else .ok { c with inst := r.1 }

/-- **A response to the latest request was not accepted yet.** The unique identifier is that of
the latest preparation. -/
def ClientRun.AwaitsResponse (c : ClientRun) : Prop :=
  ∃ before uniqId cookie later, c.events =
      before ++ .request uniqId cookie :: List.map ClientEvent.prepared later ∧
    c.inst.uniqId = later.getLast?.getD uniqId

variable {siv : Siv} {config : ClientConfig} {c c' : ClientRun}

/-- **What is kept by a call.** Cookies are obtained after the others, and they are sent in their
order. -/
structure StepKeeps (siv : Siv) (c c' : ClientRun) : Prop where
  inst : c'.inst.Valid siv
  cookies : ∃ new, c'.obtained = c.obtained ++ new ∧
    (c'.sent ++ c'.inst.unused).Sublist (c.sent ++ c.inst.unused ++ new)
  awaits : (c.inst.okResponse = false → c.AwaitsResponse) →
    c'.inst.okResponse = false → c'.AwaitsResponse
  ntsAddress : c'.inst.ntsAddress = c.inst.ntsAddress

theorem step_prepare (config : ClientConfig) (h : c.inst.Valid siv) (input : PrepareInput) :
    ∃ c', c.step siv config (.prepare input) = .ok c' ∧ StepKeeps siv c c' := by
  obtain ⟨r, hr, hprepares, hvalid⟩ := prepareForAuth_spec config h input
  refine ⟨_, by rw [ClientRun.step, hr]; rfl, hvalid, ⟨_, rfl, ?_⟩, ?_, hprepares.ntsAddress⟩
  · rcases hprepares.cookies with ⟨hunused, hid⟩ | hid
    · rw [newContextCookies, if_pos hid]
      rcases hunused with hunused | hunused
      · rw [hunused]
        exact List.sublist_append_left _ _
      · rw [hunused, List.append_nil]
        exact (List.sublist_append_left _ _).trans (List.sublist_append_left _ _)
    · rw [newContextCookies, if_neg (by rw [hid]; simp)]
      exact (List.sublist_append_left _ _).append (List.Sublist.refl _)
  · intro hawaits hok
    obtain ⟨before, uniqId, cookie, later, hevents, -⟩ :=
      hawaits (hprepares.okResponse.symm.trans hok)
    refine ⟨before, uniqId, cookie, later ++ [input.uniqId], ?_, ?_⟩
    · simp [hevents]
    · rw [List.getLast?_concat]
      exact hprepares.uniqId

theorem step_generate (config : ClientConfig) (h : c.inst.Valid siv) (packet : List Byte)
    (info : PacketInfo) :
    ∃ c', c.step siv config (.generate packet info) = .ok c' ∧ StepKeeps siv c c' := by
  have hvalid := generateRequestAuth_valid h packet info
  rw [ClientRun.step]
  rcases generateRequestAuth_cases siv c.inst packet info with
    heq | ⟨hpos, heq⟩ | ⟨s, r, hpos, -, -, -, -, heq⟩
  · rw [heq] at hvalid ⊢
    refine ⟨_, rfl, hvalid, ⟨[], (List.append_nil _).symm, ?_⟩, id, rfl⟩
    rw [List.append_nil]
    exact List.Sublist.refl _
  · rw [heq] at hvalid ⊢
    refine ⟨_, rfl, hvalid, ⟨[], (List.append_nil _).symm, ?_⟩, id, rfl⟩
    rw [List.append_nil, unused_eq_cons hpos]
    exact (List.Sublist.refl _).append (List.sublist_cons_self _ _)
  · rw [heq] at hvalid ⊢
    refine ⟨_, rfl, hvalid, ⟨[], (List.append_nil _).symm, ?_⟩,
      fun _ _ => ⟨c.events, c.inst.uniqId, _, [], rfl, rfl⟩, rfl⟩
    rw [List.append_nil, unused_eq_cons hpos, Nat.mod_eq_of_lt h.cookieIndex, List.append_assoc]
    exact List.Sublist.refl _

/-- The cookies of a response are after the others. -/
theorem unused_accepted (hle : c.inst.numCookies ≤ ntsMaxCookies) (s : Option SivInstance)
    (l : List (List Byte)) : ∃ new, ({ c.inst with siv := s }.accepted l).unused =
      c.inst.unused ++ new := by
  have hle' : { c.inst with siv := s }.numCookies ≤ ntsMaxCookies := hle
  obtain ⟨hunused, -⟩ := foldl_addCookie_unused hle' l
  have hlength : c.inst.unused.length = c.inst.numCookies := RingBuffer.length_view ..
  have heq : ({ c.inst with siv := s }.accepted l).unused =
      (c.inst.unused ++ l).take ntsMaxCookies := hunused
  refine ⟨l.take (ntsMaxCookies - c.inst.unused.length), ?_⟩
  rw [heq, List.take_append, List.take_of_length_le (by omega)]

theorem step_check (config : ClientConfig) (h : c.inst.Valid siv) (packet : List Byte)
    (info : PacketInfo) :
    ∃ c', c.step siv config (.check packet info) = .ok c' ∧ StepKeeps siv c c' := by
  have hvalid := checkResponseAuth_valid h packet info
  rw [ClientRun.step]
  rcases checkResponseAuth_cases siv c.inst packet info with
    ⟨s, nak, heq, -⟩ | ⟨s, plaintext, fields, -, -, -, -, -, heq⟩
  · rw [heq] at hvalid ⊢
    refine ⟨_, rfl, hvalid, ⟨[], (List.append_nil _).symm, ?_⟩, id, rfl⟩
    rw [List.append_nil]
    exact List.Sublist.refl _
  · rw [heq] at hvalid ⊢
    obtain ⟨new, hunused⟩ := unused_accepted h.numCookies
      (some { s with key := some c.inst.context.s2c }) (cookieBodies fields)
    refine ⟨_, rfl, hvalid, ⟨_, rfl, ?_⟩, nofun, ?_⟩
    · have hlength : c.inst.unused.length = c.inst.numCookies := RingBuffer.length_view ..
      dsimp only
      rw [hunused, ← hlength, List.drop_left, ← List.append_assoc]
    · exact accepted_ntsAddress ..

theorem step_keeps (config : ClientConfig) (h : c.inst.Valid siv) (action : ClientAction) :
    ∃ c', c.step siv config action = .ok c' ∧ StepKeeps siv c c' := by
  cases action with
  | prepare input => exact step_prepare config h input
  | generate packet info => exact step_generate config h packet info
  | check packet info => exact step_check config h packet info

/-- **The invariant of a run.** -/
structure ClientRun.Valid (siv : Siv) (c : ClientRun) : Prop where
  inst : c.inst.Valid siv
  order : (c.sent ++ c.inst.unused).Sublist c.obtained
  awaits : c.inst.okResponse = false → c.AwaitsResponse

theorem start_valid (siv : Siv) (ntsAddress : RemoteAddress) (name : List Char)
    (ntpPort : BitVec 16) : (ClientRun.start ntsAddress name ntpPort).Valid siv where
  inst := show (NncInstance.create ntsAddress name ntpPort).reset.Valid siv from reset_valid siv id
  order := List.nil_sublist _
  awaits := nofun

theorem StepKeeps.valid (h : StepKeeps siv c c') (hc : c.Valid siv) : c'.Valid siv := by
  obtain ⟨new, hobtained, hcookies⟩ := h.cookies
  refine ⟨h.inst, ?_, h.awaits hc.awaits⟩
  rw [hobtained]
  exact hcookies.trans (hc.order.append (List.Sublist.refl _))

theorem run_valid (config : ClientConfig) (actions : List ClientAction) (h : c.Valid siv) :
    ∃ c', actions.foldlM (ClientRun.step siv config) c = .ok c' ∧ c'.Valid siv := by
  induction actions generalizing c with
  | nil => exact ⟨c, rfl, h⟩
  | cons action actions ih =>
      obtain ⟨c₁, hc₁, hkeeps⟩ := step_keeps config h.inst action
      rw [List.foldlM_cons, hc₁]
      exact ih (hkeeps.valid h)

/-- **Cookies and responses in every run.** The cookies are sent in the order in which they were
obtained, and none of them is sent twice. A response is accepted at most once for a request. It
is authenticated with the current key and it has the unique identifier of the latest
preparation. Other packets change only the key of the cipher and the NAK flag. -/
theorem run_client (siv : Siv) (config : ClientConfig) (ntsAddress : RemoteAddress)
    (name : List Char) (ntpPort : BitVec 16) (actions : List ClientAction) : ∃ c,
    actions.foldlM (ClientRun.step siv config) (.start ntsAddress name ntpPort) = .ok c ∧
      c.inst.numCookies ≤ ntsMaxCookies ∧ c.inst.cookieIndex < ntsMaxCookies ∧
      (c.sent ++ c.inst.unused).Sublist c.obtained ∧
      ∀ packet info,
        ((checkResponseAuth siv c.inst packet info).2 = true → c.AwaitsResponse ∧
          ∃ plaintext, IsAuthenticated siv c.inst.context.algorithm c.inst.context.s2c
            (List.ofFn c.inst.uniqId) packet info plaintext) ∧
        ((checkResponseAuth siv c.inst packet info).2 = false → ∃ s nak,
          (checkResponseAuth siv c.inst packet info).1 =
            { c.inst with siv := s, nakResponse := nak }) := by
  obtain ⟨c, hrun, hvalid⟩ := run_valid config actions (start_valid siv ntsAddress name ntpPort)
  refine ⟨c, hrun, hvalid.inst.numCookies, hvalid.inst.cookieIndex, hvalid.order, ?_⟩
  intro packet info
  rcases checkResponseAuth_cases siv c.inst packet info with
    ⟨s, nak, heq, -⟩ | ⟨s, plaintext, fields, hs, hok, -, hauth, -, heq⟩
  · rw [heq]
    exact ⟨nofun, fun _ => ⟨s, nak, rfl⟩⟩
  · rw [heq]
    refine ⟨fun _ => ⟨hvalid.awaits hok, plaintext, ?_⟩, nofun⟩
    rw [← (hvalid.inst.sivKeys s hs).1]
    exact hauth

/-! ### A response without a request -/

/-- A message of an NTS-KE server with a given number of cookies. -/
def sampleMessage (n : ℕ) : List Byte :=
  encode16 0x8001 ++ encode16 2 ++ encode16 0 ++ (encode16 0x8004 ++ encode16 2 ++ encode16 15) ++
    (List.range n).flatMap (fun i => encode16 5 ++ encode16 16 ++
      List.replicate 16 (BitVec.ofNat 8 (i + 1))) ++
    (encode16 0x8000 ++ encode16 0)

/-- A successful NTS-KE session. -/
def sampleSession (n : ℕ) : KeSession := ⟨sampleMessage n, fun _ _ _ => 1, none⟩

/-- A preparation with random numbers and a session which has stopped, if there is one. -/
def samplePrepare (n : ℕ) (session : Option KeSession) : PrepareInput :=
  ⟨fun _ => BitVec.ofNat 8 n, fun _ => BitVec.ofNat 8 n, 0, true, 4, session.isNone, session, true⟩

/-- A client with its first instance. -/
def sampleStart : ClientRun :=
  .start ⟨.inet4 0x7f000001, 4460⟩ ['n', 't', 's'] 123

/-- A response with a unique identifier and one cookie. -/
def sampleResponse (uniqId : Byte) : List Byte :=
  (sampleHeader 4).1 ++ encodeField ntpEfNtsUniqueIdentifier (List.replicate 32 uniqId) ++
    encodeField ntpEfNtsAuthAndEef (encode16 16 ++ encode16 36 ++ List.replicate 16 9 ++
      (encodeField ntpEfNtsCookie (List.replicate 16 7) ++ List.replicate 16 0))

/-- The information of the response. -/
def sampleResponseInfo : PacketInfo := ⟨144, 4, .server, 2, 0, .nts, none⟩

/-- A request is generated with the only cookie. The next preparation has to wait for an NTS-KE
session. -/
def sampleActions : List ClientAction :=
  [.prepare (samplePrepare 1 (some (sampleSession 1))),
    .generate (sampleHeader 3).1 (sampleHeader 3).2, .prepare (samplePrepare 2 none)]

/-- **A response can be accepted with a unique identifier which was not sent**, because a
preparation replaces it before it fails. -/
theorem accepted_without_request : ∃ c before uniqId cookie later fields,
    sampleActions.foldlM (ClientRun.step sampleSiv ⟨[15], 1000⟩) sampleStart =
      .ok c ∧
    c.events = before ++ .request uniqId cookie :: List.map ClientEvent.prepared later ∧
    parsePacket (sampleResponse 2) = .ok sampleResponseInfo ∧
    Scan (parseField (sampleResponse 2) sampleResponseInfo.length) ntpHeaderLength fields
      sampleResponseInfo.length ∧
    (∀ field ∈ fields, field.body ≠ List.ofFn uniqId) ∧
    (checkResponseAuth sampleSiv c.inst (sampleResponse 2) sampleResponseInfo).2 = true := by
  obtain ⟨c, hrun, hc⟩ := exists_ok_of_map_toOption (show (sampleActions.foldlM
    (ClientRun.step sampleSiv ⟨[15], 1000⟩) sampleStart).toOption.map
      (fun c => (c.events,
        (checkResponseAuth sampleSiv c.inst (sampleResponse 2) sampleResponseInfo).2)) =
      some ([.prepared fun _ => 1, .request (fun _ => 1) (List.replicate 16 1),
        .prepared fun _ => 2], true) by decide +kernel)
  obtain ⟨hevents, hcheck⟩ := Prod.mk.inj hc
  have huniqId : parseField (sampleResponse 2) 144 48 =
      some (⟨48, ntpEfNtsUniqueIdentifier, 32, List.replicate 32 2⟩, 36) := by decide +kernel
  have hauth : parseField (sampleResponse 2) 144 84 =
      some (⟨84, ntpEfNtsAuthAndEef, 56, (sampleResponse 2).drop 88⟩, 60) := by decide +kernel
  refine ⟨c, [.prepared fun _ => 1], fun _ => 1, List.replicate 16 1, [fun _ => 2], _, hrun,
    hevents, by decide +kernel, .cons huniqId (.cons hauth (.nil _)), ?_, hcheck⟩
  decide +kernel

end Chrony.Nts
