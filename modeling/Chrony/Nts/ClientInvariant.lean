import Chrony.Nts.Client

/-!
# The Invariant of the NTS Client

The ring buffer of a client has at most `NTS_MAX_COOKIES` cookies, which can be put in
requests, and the client has the keys for them.

## Main results

* `prepareForAuth_spec`, `generateRequestAuth_valid`, `checkResponseAuth_valid`: the functions
  of the client keep the invariant.
-/

namespace Chrony.Nts

open Lib Bytes Ntp

variable {siv : Siv} {inst : NncInstance}

/-! ### Valid instances -/

/-- **The invariant of an instance.** -/
structure NncInstance.Valid (siv : Siv) (inst : NncInstance) : Prop where
  numCookies : inst.numCookies ≤ ntsMaxCookies
  cookieIndex : inst.cookieIndex < ntsMaxCookies
  cookies : ∀ cookie ∈ inst.unused, IsCookie cookie
  sivKeys : ∀ s, inst.siv = some s →
    s.algorithm = inst.context.algorithm ∧ inst.context.HasKeys siv
  context : 0 < inst.numCookies → inst.context.HasKeys siv
  altContext : inst.altContext.algorithm = .invalid ∨ inst.altContext.HasKeys siv
  ntpAddress : inst.ntsAddress.ipAddr.isReal = true → inst.ntpAddress.ipAddr.isReal = true

theorem reset_valid (siv : Siv) (haddress : inst.ntsAddress.ipAddr.isReal = true →
    inst.ntpAddress.ipAddr.isReal = true) : inst.reset.Valid siv where
  numCookies := Nat.zero_le _
  cookieIndex := by
    change 0 < ntsMaxCookies
    decide
  cookies := nofun
  sivKeys := nofun
  context h := absurd h (Nat.lt_irrefl 0)
  altContext := .inl rfl
  ntpAddress := haddress

theorem dropCookie_valid (h : inst.Valid siv) (hpos : 0 < inst.numCookies) :
    inst.dropCookie.Valid siv where
  numCookies := Nat.le_trans (Nat.sub_le _ _) h.numCookies
  cookieIndex := Nat.mod_lt _ (by decide)
  cookies cookie hmem := by
    refine h.cookies cookie ?_
    rw [unused_eq_cons hpos]
    exact List.mem_cons_of_mem _ hmem
  sivKeys := h.sivKeys
  context _ := h.context hpos
  altContext := h.altContext
  ntpAddress := h.ntpAddress

theorem generateRequestAuth_valid (h : inst.Valid siv) (packet : List Byte) (info : PacketInfo) :
    (generateRequestAuth siv inst packet info).1.Valid siv := by
  rcases generateRequestAuth_cases siv inst packet info with
    heq | ⟨hpos, heq⟩ | ⟨s, r, hpos, -, -, -, -, heq⟩
  · rw [heq]
    exact ⟨h.1, h.2, h.3, h.4, h.5, h.6, h.7⟩
  · have hdrop := dropCookie_valid h hpos
    rw [heq]
    exact ⟨hdrop.1, hdrop.2, hdrop.3, hdrop.4, hdrop.5, hdrop.6, hdrop.7⟩
  · have hdrop := dropCookie_valid h hpos
    rw [heq]
    exact ⟨hdrop.1, hdrop.2, hdrop.3, hdrop.4, hdrop.5, hdrop.6, hdrop.7⟩

/-- Cookies from encrypted fields can be put in extension fields. -/
theorem isCookie_of_mem_cookieBodies {plaintext cookie : List Byte} {fields : List ExtField}
    (hscan : Scan (parseSingleField plaintext plaintext.length) 0 fields plaintext.length)
    (h : cookie ∈ cookieBodies fields) : IsCookie cookie := by
  obtain ⟨field, hfield, rfl⟩ := List.mem_map.mp h
  obtain ⟨hmem, hcookie⟩ := List.mem_filter.mp hfield
  obtain ⟨p, n, -, -, hparse⟩ := hscan.exists_of_mem hmem
  obtain ⟨-, hmod, hle, hlength, -, hbody, -⟩ := parseSingleField_bounds hparse
  have hbodyLength : field.body.length = field.bodyLength := by
    rw [hbody, length_slice]
    omega
  rw [isCookieField, decide_eq_true_eq] at hcookie
  have hmin : ntpMinEfLength = 16 := rfl
  refine ⟨?_, ?_, ?_⟩
  · omega
  · omega
  · omega

theorem accepted_valid (h : inst.Valid siv) {l : List (List Byte)}
    (hl : ∀ cookie ∈ l, IsCookie cookie) (hcontext : inst.context.HasKeys siv) :
    (inst.accepted l).Valid siv := by
  obtain ⟨hunused, hle⟩ := foldl_addCookie_unused h.numCookies l
  obtain ⟨cookies, n, heq⟩ := foldl_addCookie_eq inst l
  have hcookies : ∀ cookie ∈ (l.foldl NncInstance.addCookie inst).unused, IsCookie cookie := by
    intro cookie hmem
    rw [hunused] at hmem
    rcases List.mem_append.mp (List.mem_of_mem_take hmem) with hmem | hmem
    · exact h.cookies cookie hmem
    · exact hl cookie hmem
  rw [NncInstance.accepted]
  rw [heq] at hcookies hle ⊢
  exact ⟨hle, h.cookieIndex, hcookies, h.sivKeys, fun _ => hcontext, .inl rfl,
    h.ntpAddress⟩

theorem checkResponseAuth_valid (h : inst.Valid siv) (packet : List Byte) (info : PacketInfo) :
    (checkResponseAuth siv inst packet info).1.Valid siv := by
  rcases checkResponseAuth_cases siv inst packet info with
    ⟨s, nak, heq, hs⟩ | ⟨s, plaintext, fields, hs, -, -, -, hfields, heq⟩
  · rw [heq]
    refine ⟨h.numCookies, h.cookieIndex, h.cookies, ?_, h.context, h.altContext, h.ntpAddress⟩
    rcases hs with rfl | ⟨s₀, hs₀, rfl⟩
    · exact h.sivKeys
    · intro s' hs'
      obtain rfl := Option.some.inj hs'
      exact h.sivKeys s₀ hs₀
  · obtain ⟨halgorithm, hcontext⟩ := h.sivKeys s hs
    have hvalid : { inst with siv := some { s with key := some inst.context.s2c } }.Valid siv := by
      refine ⟨h.numCookies, h.cookieIndex, h.cookies, ?_, h.context, h.altContext, h.ntpAddress⟩
      intro s' hs'
      obtain rfl := Option.some.inj hs'
      exact ⟨halgorithm, hcontext⟩
    rw [heq]
    exact accepted_valid hvalid (fun _ hmem => isCookie_of_mem_cookieBodies hfields hmem) hcontext

/-! ### Preparation -/

theorem checkCookies_cases (config : ClientConfig) (now : ℚ) (inst : NncInstance) :
    (checkCookies config now inst = (inst, decide (0 < inst.numCookies))) ∨
    (checkCookies config now inst = ({ inst with numCookies := 0 }, false)) ∨
    (0 < inst.numCookies ∧ inst.altContext.algorithm = inst.context.algorithm ∧
      inst.altContext.algorithm ≠ .invalid ∧
      checkCookies config now inst = ({ inst with
        context := inst.altContext
        altContext := { inst.altContext with algorithm := .invalid } }, true)) := by
  rw [checkCookies]
  split
  next hforce =>
      split
      next halt => exact .inr (.inr ⟨hforce.1, halt.2.1, halt.1, rfl⟩)
      next => exact .inr (.inl rfl)
  next => exact .inl rfl

theorem copyCookies_view (cookies : ℕ → List Byte) {l : List (List Byte)}
    (h : l.length ≤ ntsMaxCookies) :
    RingBuffer.view (copyCookies cookies l) 0 ntsMaxCookies l.length = l := by
  refine List.ext_getElem (RingBuffer.length_view ..) ?_
  intro i hi hl
  rw [RingBuffer.getElem_view, RingBuffer.pos, Nat.zero_add, Nat.mod_eq_of_lt (by omega),
    copyCookies, dif_pos hl]

/-- Only the address of the NTP server is changed. It stays a real address. -/
theorem setNtpAddress_eq (inst : NncInstance) (negotiated : RemoteAddress) (updated : Bool) :
    ∃ address, (setNtpAddress inst negotiated updated).1 = { inst with ntpAddress := address } ∧
      (negotiated.ipAddr = .unspec ∨ negotiated.ipAddr.isReal = true →
        inst.ntsAddress.ipAddr.isReal = true → inst.ntpAddress.ipAddr.isReal = true →
        address.ipAddr.isReal = true) := by
  rw [setNtpAddress]
  split
  · exact ⟨inst.ntpAddress, rfl, fun _ _ h => h⟩
  · split
    · exact ⟨inst.ntpAddress, rfl, fun _ _ h => h⟩
    · refine ⟨_, rfl, fun hnegotiated hnts _ => ?_⟩
      rw [NncInstance.newAddress]
      dsimp only
      split
      · exact hnts
      next hfamily =>
          refine hnegotiated.resolve_left fun hunspec => hfamily ?_
          rw [hunspec]
          rfl

/-- **What is changed by a part of a preparation.** The cookies are kept or dropped, or they
come from an NTS-KE session, which gives a new context. -/
structure Prepares (inst inst' : NncInstance) : Prop where
  cookies : (inst'.unused = inst.unused ∨ inst'.unused = []) ∧ inst'.contextId = inst.contextId ∨
    inst'.contextId = inst.contextId + 1
  okResponse : inst'.okResponse = inst.okResponse
  uniqId : inst'.uniqId = inst.uniqId
  name : inst'.name = inst.name
  ntsAddress : inst'.ntsAddress = inst.ntsAddress
  defaultNtpPort : inst'.defaultNtpPort = inst.defaultNtpPort

theorem Prepares.refl (inst : NncInstance) : Prepares inst inst :=
  ⟨.inl ⟨.inl rfl, rfl⟩, rfl, rfl, rfl, rfl, rfl⟩

/-- There is at most one session. -/
theorem Prepares.trans {inst inst' inst'' : NncInstance} (h : Prepares inst inst')
    (h' : Prepares inst' inst'') (honce : inst'.contextId = inst.contextId ∨
      inst''.contextId = inst'.contextId) : Prepares inst inst'' where
  cookies := by
    rcases h.cookies with ⟨hunused, hid⟩ | hid
    · rcases h'.cookies with ⟨hunused', hid'⟩ | hid'
      · refine .inl ⟨?_, hid'.trans hid⟩
        rcases hunused' with hunused' | hunused'
        · rw [hunused']
          exact hunused
        · exact .inr hunused'
      · exact .inr (by rw [hid', hid])
    · rcases honce with hsame | hsame
      · rw [hid] at hsame
        simp at hsame
      · exact .inr (hsame.trans hid)
  okResponse := h'.okResponse.trans h.okResponse
  uniqId := h'.uniqId.trans h.uniqId
  name := h'.name.trans h.name
  ntsAddress := h'.ntsAddress.trans h.ntsAddress
  defaultNtpPort := h'.defaultNtpPort.trans h.defaultNtpPort

/-- Cookies are used only with their keys. -/
theorem checkCookies_spec (config : ClientConfig) (now : ℚ) (h : inst.Valid siv) :
    let r := checkCookies config now inst
    Prepares inst r.1 ∧ r.1.contextId = inst.contextId ∧ r.1.Valid siv ∧
      (r.2 = decide (0 < r.1.numCookies)) := by
  rcases checkCookies_cases config now inst with heq | heq | ⟨hpos, halgorithm, halt, heq⟩
  · rw [heq]
    exact ⟨.refl inst, rfl, h, rfl⟩
  · rw [heq]
    refine ⟨⟨.inl ⟨.inr rfl, rfl⟩, rfl, rfl, rfl, rfl, rfl⟩, rfl, ?_, rfl⟩
    exact ⟨Nat.zero_le _, h.cookieIndex, nofun, h.sivKeys, nofun, h.altContext, h.ntpAddress⟩
  · have hkeys : inst.altContext.HasKeys siv := h.altContext.resolve_left halt
    rw [heq]
    refine ⟨⟨.inl ⟨.inl rfl, rfl⟩, rfl, rfl, rfl, rfl, rfl⟩, rfl, ?_, (decide_eq_true hpos).symm⟩
    refine ⟨h.numCookies, h.cookieIndex, h.cookies, ?_, fun _ => hkeys, .inl rfl, h.ntpAddress⟩
    intro s hs
    exact ⟨(h.sivKeys s hs).1.trans halgorithm.symm, hkeys⟩

/-- The cookies of a session are stored from the first slot. -/
theorem takeCookies_spec {config : ClientConfig} {input : PrepareInput} (h : inst.Valid siv) :
    let r := takeCookies siv config inst input
    Prepares inst r.1 ∧ r.1.Valid siv ∧ (r.2 = true → 0 < r.1.numCookies) := by
  rw [takeCookies]
  split
  · exact ⟨⟨.inl ⟨.inl rfl, rfl⟩, rfl, rfl, rfl, rfl, rfl⟩,
      ⟨h.numCookies, h.cookieIndex, h.cookies, h.sivKeys, h.context, h.altContext,
        h.ntpAddress⟩, nofun⟩
  next data hdata =>
      obtain ⟨session, -, hsession⟩ := Option.bind_eq_some_iff.mp hdata
      have hvalid := KeSession.data_valid hsession
      obtain ⟨address, haddress, hreal⟩ :=
        setNtpAddress_eq (inst.withData data) data.ntpAddress input.updated
      have hreal' : inst.ntsAddress.ipAddr.isReal = true → address.ipAddr.isReal = true :=
        fun hnts => hreal hvalid.ntpAddress hnts (h.ntpAddress hnts)
      dsimp only
      split
      · rw [haddress]
        exact ⟨⟨.inr rfl, rfl, rfl, rfl, rfl, rfl⟩, ⟨Nat.zero_le _, h.cookieIndex, nofun, nofun,
          nofun, hvalid.altContext, hreal'⟩, nofun⟩
      · rw [haddress]
        refine ⟨⟨.inr rfl, rfl, rfl, rfl, rfl, rfl⟩, ⟨hvalid.length, Nat.zero_lt_succ _, ?_, nofun,
          fun _ => hvalid.context, hvalid.altContext, hreal'⟩, fun _ => ?_⟩
        · intro cookie hmem
          have hview : cookie ∈ RingBuffer.view (copyCookies inst.cookies data.cookies) 0
              ntsMaxCookies data.cookies.length := hmem
          rw [copyCookies_view _ hvalid.length] at hview
          exact hvalid.cookies cookie hview
        · exact List.length_pos_iff.mpr hvalid.nonempty

theorem updateNextNkeAttempt_eq (inst : NncInstance) (failedStart : Bool) (now : ℚ)
    (retryFactor : ℤ) : ∃ next, updateNextNkeAttempt inst failedStart now retryFactor =
      { inst with nextNkeAttempt := next } := by
  rw [updateNextNkeAttempt]
  split
  · exact ⟨_, rfl⟩
  · split
    · exact ⟨_, rfl⟩
    · exact ⟨_, rfl⟩

/-- The assertion in `get_cookies` holds. -/
theorem getCookies_spec {config : ClientConfig} {input : PrepareInput} (h : inst.Valid siv)
    (hzero : inst.numCookies = 0) : ∃ r, getCookies siv config inst input = .ok r ∧
      Prepares inst r.1 ∧ r.1.Valid siv ∧ (r.2 = true → 0 < r.1.numCookies) := by
  rw [getCookies, if_neg (not_not.mpr hzero)]
  split
  · exact ⟨_, rfl, .refl inst, h, nofun⟩
  · dsimp only
    have hstart : ∃ nke attempts, (if inst.nke then inst else
        { inst with nke := true, nkeAttempts := inst.nkeAttempts + 1 }) =
          { inst with nke := nke, nkeAttempts := attempts } := by
      split
      · exact ⟨_, _, rfl⟩
      · exact ⟨_, _, rfl⟩
    obtain ⟨nke, attempts, hstart⟩ := hstart
    obtain ⟨next, hnext⟩ := updateNextNkeAttempt_eq
      { inst with nke := nke, nkeAttempts := attempts } (!inst.nke && !input.started) input.now
      input.retryFactor
    rw [hstart, hnext]
    have hprepares : Prepares inst { inst with
        nke := nke, nkeAttempts := attempts, nextNkeAttempt := next } :=
      ⟨.inl ⟨.inl rfl, rfl⟩, rfl, rfl, rfl, rfl, rfl⟩
    have hvalid : { inst with
        nke := nke, nkeAttempts := attempts, nextNkeAttempt := next }.Valid siv :=
      ⟨h.numCookies, h.cookieIndex, h.cookies, h.sivKeys, h.context, h.altContext, h.ntpAddress⟩
    split
    · exact ⟨_, rfl, hprepares, hvalid, nofun⟩
    · obtain ⟨htake, hrest⟩ := takeCookies_spec hvalid
      exact ⟨_, rfl, hprepares.trans htake (.inl rfl), hrest⟩

theorem setRequestKey_spec (h : inst.Valid siv) (hpos : 0 < inst.numCookies) :
    Prepares inst (setRequestKey siv inst).1 ∧
      (setRequestKey siv inst).1.contextId = inst.contextId ∧
      (setRequestKey siv inst).1.Valid siv := by
  have hkeys := h.context hpos
  have halgorithm : ∀ s, inst.siv.or (siv.createInstance inst.context.algorithm) = some s →
      s.algorithm = inst.context.algorithm := by
    intro s hs
    rcases Option.or_eq_some_iff.mp hs with hs | ⟨-, hs⟩
    · exact (h.sivKeys s hs).1
    · rw [Siv.createInstance] at hs
      split at hs
      · cases hs
      · obtain rfl := Option.some.inj hs
        rfl
  rw [setRequestKey]
  dsimp only
  split
  · exact ⟨⟨.inl ⟨.inl rfl, rfl⟩, rfl, rfl, rfl, rfl, rfl⟩, rfl,
      ⟨h.numCookies, h.cookieIndex, h.cookies, h.sivKeys, h.context, h.altContext, h.ntpAddress⟩⟩
  next s hs =>
      split
      · refine ⟨⟨.inl ⟨.inl rfl, rfl⟩, rfl, rfl, rfl, rfl, rfl⟩, rfl,
          ⟨h.numCookies, h.cookieIndex, h.cookies, ?_, h.context, h.altContext, h.ntpAddress⟩⟩
        intro s' hs'
        obtain rfl := Option.some.inj hs'
        exact ⟨halgorithm s hs, hkeys⟩
      next s₁ hset =>
          obtain ⟨rfl, -⟩ := setKey_eq_some hset
          refine ⟨⟨.inl ⟨.inl rfl, rfl⟩, rfl, rfl, rfl, rfl, rfl⟩, rfl,
            ⟨h.numCookies, h.cookieIndex, h.cookies, ?_, h.context, h.altContext, h.ntpAddress⟩⟩
          intro s' hs'
          obtain rfl := Option.some.inj hs'
          exact ⟨halgorithm s hs, hkeys⟩

/-- **What `NNC_PrepareForAuth` does.** It does not fail an assertion. -/
theorem prepareForAuth_spec (config : ClientConfig) (h : inst.Valid siv) (input : PrepareInput) :
    ∃ r, prepareForAuth siv config inst input = .ok r ∧
      Prepares { inst with uniqId := input.uniqId } r.1 ∧ r.1.Valid siv := by
  have hvalid : { inst with
      authReady := false, uniqId := input.uniqId, nonce := input.nonce }.Valid siv :=
    ⟨h.numCookies, h.cookieIndex, h.cookies, h.sivKeys, h.context, h.altContext, h.ntpAddress⟩
  have hrandom : Prepares { inst with uniqId := input.uniqId } { inst with
      authReady := false, uniqId := input.uniqId, nonce := input.nonce } :=
    ⟨.inl ⟨.inl rfl, rfl⟩, rfl, rfl, rfl, rfl, rfl⟩
  obtain ⟨hcheck, hid, hvalid₁, hr⟩ := checkCookies_spec config input.now hvalid
  rw [prepareForAuth]
  generalize checkCookies config input.now { inst with
    authReady := false, uniqId := input.uniqId, nonce := input.nonce } = r at *
  dsimp only
  cases hready : r.2 with
  | true =>
      have hpos : 0 < r.1.numCookies := of_decide_eq_true (hr.symm.trans hready)
      obtain ⟨hkey, hidkey, hvalidkey⟩ := setRequestKey_spec hvalid₁ hpos
      refine ⟨setRequestKey siv r.1, ?_, ?_, hvalidkey⟩
      · rw [if_pos rfl]
        exact if_pos hready
      · exact (hrandom.trans hcheck (.inl rfl)).trans hkey (.inr hidkey)
  | false =>
      have hzero : r.1.numCookies = 0 := by
        have := of_decide_eq_false (hr.symm.trans hready)
        omega
      obtain ⟨r', hget, hprepares, hvalid₂, hpos⟩ := getCookies_spec hvalid₁ hzero
      have hprepares' := (hrandom.trans hcheck (.inl rfl)).trans hprepares (.inl hid)
      cases hready' : r'.2 with
      | true =>
          obtain ⟨hkey, hidkey, hvalidkey⟩ := setRequestKey_spec hvalid₂ (hpos hready')
          refine ⟨setRequestKey siv r'.1, ?_, hprepares'.trans hkey (.inr hidkey), hvalidkey⟩
          rw [if_neg (by decide), hget]
          exact if_pos hready'
      | false =>
          refine ⟨(r'.1, false), ?_, hprepares', hvalid₂⟩
          rw [if_neg (by decide), hget]
          exact if_neg (by rw [hready']; decide)

end Chrony.Nts
