import ChatMultithread.EndToEnd.RoomShown

/-!
# A request served alone

Every handler, run by its thread without interruption, does to the room what the room's own `serve`
says. One lemma for each kind of operation says what it displays; the handlers put them together.
-/

namespace ChatMultithread

open Lib ChatRoom

namespace Server

variable {x : Externs} {s s₁ s' : Server} {r r' : ChatRoom} {i j : Slot} {o p : User} {c : Conn}
  {now : Int} {t : Thread} {α β : Type} {a : α} {b : β}

/-! ## The operations -/

/-- What only reads. -/
theorem yields_read {op : Op} {k : op.Resp → ServerProg α} {res : op.Resp}
    {target : Option (Int × Option Conn)}
    (hop : s.perform x c t now true op = some (res, s, target))
    (hrest : Yields x c now { t with target := target } s (k res) a r) :
    Yields x c now t s (.call op k) a r :=
  yields_call hop (Keeps.refl s) hrest

/-- A message to a user. -/
theorem yields_send (h : Displays s r) (hj : r.seats j = some p) {m : Message} {fd : Int}
    {buf : Bytes} (hfd : fd = (s.sessions j).sockfd) (hbuf : buf = m.encode)
    {k : Bool → ServerProg α}
    (hrest : ∀ target s₁, Keeps s s₁ → Displays s₁ (r.tell p.client m) →
      Yields x c now { t with target := target } s₁ (k true) a r') :
    Yields x c now t s (.call (.send fd buf) k) a r' := by
  subst hfd
  have hkeeps : Keeps s (s.deliver (.client c) (aimOf c t (s.sessions j).sockfd)
      (s.sessions j).sockfd buf) := by
    constructor
    · intro i
      rw [deliver_sessions]
    · obtain ⟨log, hlog⟩ := s.deliver_eq (.client c) (aimOf c t (s.sessions j).sockfd)
        (s.sessions j).sockfd buf
      rw [hlog]
  have hop : s.perform x c t now true (.send (s.sessions j).sockfd buf) = some (true,
      s.deliver (.client c) (aimOf c t (s.sessions j).sockfd) (s.sessions j).sockfd buf,
      if t.target.map Prod.fst = some (s.sessions j).sockfd then none else t.target) := by
    simp [Server.perform, h.owner j p hj]
  exact yields_call hop hkeeps (hrest _ _ hkeeps (h.deliver hj hbuf))

/-- The last message of a handler. -/
theorem yields_sendIgnored (h : Displays s r) (hj : r.seats j = some p) {m : Message} {fd : Int}
    {buf : Bytes} (hfd : fd = (s.sessions j).sockfd) (hbuf : buf = m.encode) :
    Yields x c now t s (sendIgnored fd buf) () (r.tell p.client m) := by
  rw [sendIgnored_eq]
  exact yields_send h hj hfd hbuf fun _ _ _ h₁ => yields_ret h₁

/-- A message to users of a kind. -/
theorem yields_tellAll (h : Displays s r) {op : Op} {k : op.Resp → ServerProg α} {res : op.Resp}
    {target : Option (Int × Option Conn)} {sends : List (Int × Bytes)} {m : Message}
    {f : Slot → User → Bool}
    (hop : s.perform x c t now true op = some (res, s.deliverAll (.client c) sends, target))
    (hnodup : (sends.map Prod.fst).Nodup)
    (hsends : ∀ q, q ∈ sends ↔ q.2 = m.encode ∧
      ∃ j p, r.seats j = some p ∧ f j p = true ∧ (s.sessions j).sockfd = q.1)
    (hrest : ∀ s₁, Keeps s s₁ →
      Displays s₁ (r.tellAll fun j p => if f j p then some m else none) →
      Yields x c now { t with target := target } s₁ (k res) a r') :
    Yields x c now t s (.call op k) a r' := by
  have hkeeps : Keeps s (s.deliverAll (.client c) sends) := by
    rw [deliverAll_eq]
    exact ⟨fun _ => rfl, rfl⟩
  exact yields_call hop hkeeps (hrest _ hkeeps (h.deliverAll hnodup hsends))

/-- The session of the user is written. -/
theorem yields_write (h : Displays s r) {op : Op} {k : op.Resp → ServerProg α} {res : op.Resp}
    {target : Option (Int × Option Conn)} {session : ClientSession} {log : List Event}
    (hop : s.perform x c t now true op = some (res,
      { s with sessions := Function.update s.sessions i session, log := log }, target))
    (hi : r.seats i = some o) (hsockfd : session.sockfd = (s.sessions i).sockfd)
    (hclient : p.client = o.client) (hsession : SessionOf p session)
    (hseats : r'.seats = Function.update r.seats i (some p)) (hheard : r'.heard = r.heard)
    (hlog : ∀ c, receivedBy c log = receivedBy c s.log) {r'' : ChatRoom}
    (hrest : ∀ s₁, Keeps s s₁ → Displays s₁ r' →
      Yields x c now { t with target := target } s₁ (k res) a r'') :
    Yields x c now t s (.call op k) a r'' := by
  have hkeeps : Keeps s
      { s with sessions := Function.update s.sessions i session, log := log } := by
    refine ⟨fun j => ?_, rfl⟩
    dsimp only
    by_cases hj : j = i
    · rw [hj, Function.update_self, hsockfd]
    · rw [Function.update_of_ne hj]
  exact yields_call hop hkeeps
    (hrest _ hkeeps (h.write hi hsockfd hclient hsession hseats hheard hlog))

/-- A lookup of a user. -/
theorem usernameExists_eq (hx : x.Manages) (h : Displays s r) (user : Bytes) :
    x.usernameExists s.sessions user = (find r user).isSome := by
  rw [Bool.eq_iff_iff, Option.isSome_iff_exists]
  by_cases huser : user = []
  · subst huser
    rw [hx.usernameExists_nil]
    refine iff_of_false (by simp) ?_
    rintro ⟨p, hp⟩
    obtain ⟨i, u, -, -, hu⟩ := find_eq_some.1 hp
    exact username_ne_nil u hu
  · rw [hx.usernameExists_iff _ _ huser]
    constructor
    · rintro ⟨i, hi⟩
      obtain ⟨p, u, hp, hu, hname⟩ := h.named_iff.1 hi
      exact ⟨p, find_eq_some.2 ⟨i, u, hp, hu, hname⟩⟩
    · rintro ⟨p, hp⟩
      obtain ⟨i, u, hi, hu, hname⟩ := find_eq_some.1 hp
      exact ⟨i, h.named_iff.2 ⟨p, u, hi, hu, hname⟩⟩

/-- The descriptors of the registered sessions are distinct. -/
theorem Displays.sockfd_injOn (h : Displays s r) :
    Set.InjOn (fun i => (s.sessions i).sockfd) {i | Registered s.sessions i} := by
  intro i hi j hj hij
  obtain ⟨o, -, ho, -⟩ := h.registered_iff.1 hi
  obtain ⟨p, -, hp, -⟩ := h.registered_iff.1 hj
  exact h.sockfd_inj ho hp hij

/-! ## The handlers -/

section Handlers

variable (hx : x.Manages) (h : Displays s r) (ho : r.seats t.slot = some o) (msg : ParsedMessage)
include hx h ho

omit hx in
theorem yields_handleQuit : Yields x c now t s handleQuit () (serve r t.slot o .sayBye) := by
  have hbye : snprintf 64 (lineOf srvBye []) = ascii "BYE\n" := by decide
  rw [handleQuit_eq, hbye]
  apply yields_read rfl
  exact yields_sendIgnored h ho rfl rfl

theorem yields_handleList : Yields x c now t s handleList () (serve r t.slot o .list) := by
  rw [handleList_eq]
  apply yields_read rfl
  apply yields_read rfl
  refine yields_sendIgnored h ho rfl ?_
  rw [hx.getAllUsers_eq, sessionsListUsernames_eq _ (by decide), h.usernames_eq]
  rfl

theorem yields_handleInfo :
    Yields x c now t s (handleInfo msg) () (serve r t.slot o (.info msg.arg1)) := by
  rw [handleInfo_eq]
  apply yields_read rfl
  apply yields_read rfl
  rw [usernameExists_eq hx h]
  cases hfind : find r msg.arg1 with
  | none =>
    simp only [serve, hfind]
    exact yields_sendIgnored h ho rfl rfl
  | some p =>
    obtain ⟨i, u, hi, hu, huser⟩ := find_eq_some.1 hfind
    have hsession := h.taken i p hi
    have hnamed : Named s.sessions i msg.arg1 := h.named_iff.2 ⟨p, u, hi, hu, huser⟩
    simp only [serve, hfind]
    apply yields_read rfl
    rw [hx.getUserInfo_eq _ _ i (huser ▸ username_ne_nil u) hnamed fun j hj =>
      h.named_unique hnamed hj, hsession.addr, hsession.status]
    exact yields_sendIgnored h ho rfl rfl

theorem yields_handleMsg :
    Yields x c now t s (handleMsg msg) () (serve r t.slot o (.msg msg.arg1 msg.arg2)) := by
  rw [handleMsg_eq]
  apply yields_read rfl
  apply yields_read rfl
  cases hfind : find r msg.arg1 with
  | none =>
    have hneg : x.findUserFd s.sessions msg.arg1 < 0 := by
      by_contra hpos
      obtain ⟨i, hi, -⟩ := hx.findUserFd_named _ _ (Int.not_lt.1 hpos)
      obtain ⟨p, u, hp, hu, huser⟩ := h.named_iff.1 hi
      exact find_eq_none.1 hfind i p u hp hu huser
    rw [if_pos hneg]
    simp only [serve, hfind]
    exact yields_sendIgnored h ho rfl rfl
  | some p =>
    obtain ⟨i, u, hi, hu, huser⟩ := find_eq_some.1 hfind
    have hnamed : Named s.sessions i msg.arg1 := h.named_iff.2 ⟨p, u, hi, hu, huser⟩
    have hfd := hx.findUserFd_eq _ _ i (huser ▸ username_ne_nil u) hnamed fun j hj =>
      h.named_unique hnamed hj
    have hpos : ¬ x.findUserFd s.sessions msg.arg1 < 0 := by
      rw [hfd]
      exact Int.not_lt.2 (h.nonneg i p hi)
    rw [if_neg hpos]
    simp only [serve, hfind]
    apply yields_read rfl
    refine yields_send (m := .fields (.deliver (signature o) msg.arg2)) h hi hfd ?_
      fun target s₁ hkeeps h₁ => ?_
    · rw [(h.taken t.slot o ho).username]
      rfl
    · exact yields_sendIgnored h₁ (by simpa using ho) (hkeeps.sockfd t.slot).symm rfl

theorem yields_handleBroadcast :
    Yields x c now t s (handleBroadcast msg) () (serve r t.slot o (.broadcast msg.arg2)) := by
  rw [handleBroadcast_eq]
  apply yields_read rfl
  apply yields_read rfl
  rw [(h.taken t.slot o ho).username]
  refine yields_tellAll (m := .fields (.broadcastFrom (signature o) msg.arg2))
    (f := fun _ p => p.name.isSome) h rfl ?_ ?_ fun s₁ hkeeps h₁ => ?_
  · exact hx.nodup_broadcastAll _ _ h.sockfd_injOn
  · intro q
    rw [hx.mem_broadcastAll]
    refine and_congr Iff.rfl (exists_congr fun j => ?_)
    rw [h.registered_iff]
    constructor
    · rintro ⟨⟨p, u, hp, hu⟩, hfd⟩
      exact ⟨p, hp, by simp [hu], hfd⟩
    · rintro ⟨p, hp, hsome, hfd⟩
      obtain ⟨u, hu⟩ := Option.isSome_iff_exists.1 hsome
      exact ⟨⟨p, u, hp, hu⟩, hfd⟩
  · simp only [serve]
    exact yields_sendIgnored h₁ (by simpa using ho) (hkeeps.sockfd t.slot).symm rfl

theorem yields_handleRegister :
    Yields x c now t s (handleRegister msg) () (serve r t.slot o (.register msg.arg1)) := by
  rw [handleRegister_eq]
  apply yields_read rfl
  by_cases huser : isValidUsername msg.arg1 = true
  · rw [if_neg (by simpa using huser)]
    apply yields_read rfl
    rw [usernameExists_eq hx h]
    by_cases hfree : r.holder ⟨msg.arg1, huser⟩ = none
    · have hfind : find r msg.arg1 = none := by
        rw [find, dif_pos huser, hfree]
        rfl
      simp only [serve, dif_pos huser, dif_pos hfree, hfind, Option.isSome_none]
      have hadd := hx.addSession_eq s.sessions msg.arg1 (s.sessions t.slot).sockfd t.slot
        (h.onlyAt ho)
      have hsession := h.taken t.slot o ho
      have hop : s.perform x c t now true (.addSession msg.arg1 (s.sessions t.slot).sockfd) =
          some ((), { s with
            sessions := Function.update s.sessions t.slot
              { s.sessions t.slot with username := msg.arg1, isRegistered := true }
            log := .named c msg.arg1 :: s.log }, t.target) := by
        simp only [Server.perform, hadd]
      have ho₁ : (r.christen t.slot ⟨msg.arg1, huser⟩ hfree).seats t.slot =
          some { o with name := some ⟨msg.arg1, huser⟩ } := by simp [ho]
      refine yields_write h hop ho rfl (show ({ o with name := some ⟨msg.arg1, huser⟩ } : User).client =
          o.client from rfl) ⟨hsession.active, rfl, rfl, hsession.addr, hsession.status,
          hsession.lastActivity⟩ (by rw [Room.christen_seats, ho]; rfl)
        (Room.christen_heard _ _ _ hfree) (fun c => ?_) fun s₁ hkeeps h₁ => ?_
      · rw [← List.singleton_append, receivedBy_append]
        simp [receivedBy]
      apply yields_read rfl
      rw [(h₁.taken _ _ ho₁).addr]
      exact yields_sendIgnored h₁ ho₁ (hkeeps.sockfd t.slot).symm rfl
    · have hfind : (find r msg.arg1).isSome = true := by
        obtain ⟨i, hi⟩ := Option.ne_none_iff_exists'.1 hfree
        obtain ⟨p, hp, hname⟩ := Room.holder_eq_some.1 hi
        rw [find_eq_some.2 ⟨i, _, hp, hname, rfl⟩]
        rfl
      simp only [serve, dif_pos huser, dif_neg hfree, hfind]
      exact yields_sendIgnored h ho rfl rfl
  · rw [if_pos (by simpa using huser)]
    simp only [serve, dif_neg huser]
    exact yields_sendIgnored h ho rfl rfl

omit hx h ho in
theorem statusOfString_isSome {word : Bytes} :
    (statusOfString word).isSome = isValidStatus word := by
  unfold statusOfString isValidStatus
  split
  · simp [*]
  split
  · simp [*]
  split <;> simp [*]

/-- The status of a user who has a name is written, and nobody's if there is none. -/
theorem setUserStatus_displays {word : Bytes} {v : UserStatus} (hv : statusOfString word = some v) :
    ∃ s₁, s.perform x c t now true (.setUserStatus (signature o) word) = some ((), s₁, t.target) ∧
      Keeps s s₁ ∧ Displays s₁ (if o.name.isSome then
        r.amendAt t.slot fun info => { info with status := v } else r) := by
  have hsession := h.taken t.slot o ho
  cases hname : o.name with
  | none =>
    have hsignature : signature o = [] := by rw [signature, hname]; rfl
    have hkeep : x.setUserStatus s.sessions (signature o) word = s.sessions := by
      funext i
      apply hx.setUserStatus_unnamed
      rw [hsignature, h.named_iff]
      rintro ⟨p, u, -, -, hu⟩
      exact username_ne_nil u hu
    refine ⟨s, ?_, Keeps.refl s, h⟩
    simp only [Server.perform, hkeep]
  | some u =>
    have hnamed : Named s.sessions t.slot (signature o) :=
      h.named_iff.2 ⟨o, u, ho, hname, (signature_some hname).symm⟩
    have hne : signature o ≠ [] := by
      rw [signature_some hname]
      exact username_ne_nil u
    have hwrite : x.setUserStatus s.sessions (signature o) word =
        Function.update s.sessions t.slot { s.sessions t.slot with status := v } := by
      funext i
      by_cases hi : i = t.slot
      · subst hi
        rw [Function.update_self, ← hx.setUserStatus_frame s.sessions (signature o) word t.slot,
          ← hx.setUserStatus_named s.sessions (signature o) word t.slot v hne hnamed
            (fun j hj => h.named_unique hnamed hj) hv]
      · rw [Function.update_of_ne hi]
        apply hx.setUserStatus_unnamed
        intro hi'
        exact hi (h.named_unique hnamed hi')
    refine ⟨{ s with
      sessions := Function.update s.sessions t.slot { s.sessions t.slot with status := v } },
      ?_, ?_, ?_⟩
    · simp only [Server.perform, hwrite]
    · refine ⟨fun i => ?_, rfl⟩
      exact field_update (·.sockfd) (by rfl) i
    · have hsession' : SessionOf { o with info := { o.info with status := v } }
          { s.sessions t.slot with status := v } :=
        ⟨hsession.active, hsession.registered, hsession.username, hsession.addr, rfl,
          hsession.lastActivity⟩
      rw [if_pos Option.isSome_some]
      refine h.write ho ?_ ?_ hsession' ?_ ?_ fun _ => rfl
      · rfl
      · rfl
      · rw [Room.amendAt_seats, ho]
        rfl
      · rfl

theorem yields_handleStatus :
    Yields x c now t s (handleStatus msg) () (serve r t.slot o (.status msg.arg1)) := by
  rw [handleStatus_eq]
  apply yields_read rfl
  cases hv : statusOfString msg.arg1 with
  | none =>
    have hinvalid : isValidStatus msg.arg1 = false := by rw [← statusOfString_isSome, hv]; rfl
    rw [if_pos (by rw [hinvalid]; rfl)]
    simp only [serve, hv]
    exact yields_sendIgnored h ho rfl rfl
  | some v =>
    have hvalid : isValidStatus msg.arg1 = true := by rw [← statusOfString_isSome, hv]; rfl
    rw [if_neg (by rw [hvalid]; decide)]
    simp only [serve, hv]
    apply yields_read rfl
    rw [(h.taken t.slot o ho).username]
    obtain ⟨s₁, hop, hkeeps, h₁⟩ := setUserStatus_displays hx h ho hv
    apply yields_call hop hkeeps
    have ho₁ : ∃ o₁ : User, (if o.name.isSome then
        r.amendAt t.slot fun info => { info with status := v } else r).seats t.slot = some o₁ ∧
        o₁.client = o.client ∧ o₁.name = o.name := by
      split
      · rw [Room.amendAt_seats, ho]
        exact ⟨_, Function.update_self .., rfl, rfl⟩
      · exact ⟨o, ho, rfl, rfl⟩
    generalize (if o.name.isSome then
      r.amendAt t.slot fun info => { info with status := v } else r) = r₁ at h₁ ho₁ ⊢
    obtain ⟨o₁, ho₁, hclient, hname⟩ := ho₁
    rw [← hclient]
    refine yields_send (m := .fields (.statusOk msg.arg1)) h₁ ho₁ (hkeeps.sockfd t.slot).symm rfl
      fun target s₂ hkeeps₂ h₂ => ?_
    apply yields_read rfl
    have ho₂ : (r₁.tell o₁.client (.fields (.statusOk msg.arg1))).seats t.slot = some o₁ := ho₁
    have hsignature : signature o₁ = signature o := by rw [signature, hname, signature]
    have hfd : (s.sessions t.slot).sockfd = (s₂.sessions t.slot).sockfd :=
      ((hkeeps.trans hkeeps₂).sockfd t.slot).symm
    rw [(h₂.taken _ _ ho₂).username, hsignature, hfd]
    refine yields_tellAll (m := .fields (.statusChanged (signature o) msg.arg1))
      (f := fun j p => decide (j ≠ t.slot ∧ p.name.isSome)) h₂ rfl ?_ ?_
      fun s₃ hkeeps₃ h₃ => ?_
    · exact hx.nodup_broadcastExcept _ _ _ h₂.sockfd_injOn
    · intro q
      rw [hx.mem_broadcastExcept]
      refine and_congr Iff.rfl ?_
      constructor
      · rintro ⟨hne, j, hreg, hq⟩
        obtain ⟨p, u, hp, hu⟩ := h₂.registered_iff.1 hreg
        refine ⟨j, p, hp, decide_eq_true ⟨?_, by simp [hu]⟩, hq⟩
        rintro rfl
        exact hne hq.symm
      · rintro ⟨j, p, hp, hj, hq⟩
        obtain ⟨hne, hsome⟩ := of_decide_eq_true hj
        obtain ⟨u, hu⟩ := Option.isSome_iff_exists.1 hsome
        refine ⟨?_, j, h₂.registered_iff.2 ⟨p, u, hp, hu⟩, hq⟩
        rw [← hq]
        intro heq
        exact hne (h₂.sockfd_inj hp ho₂ heq)
    · simpa using yields_ret h₃

/-- The handlers together. -/
theorem yields_handlerOf {line : Bytes} (hping : line ≠ ascii "PING\n")
    (hquit : line ≠ ascii "QUIT\n") (hcmd : lineCommand line ≠ .invalid) :
    Yields x c now t s (handlerOf (lineMessage line)) () (serve r t.slot o (requestOf line)) := by
  have htype := lineMessage_type line
  rw [requestOf, if_neg hping, if_neg hquit]
  unfold handlerOf
  split
  case h_1 hm =>
    rw [← htype, hm]
    exact yields_handleRegister hx h ho _
  case h_2 hm =>
    rw [← htype, hm]
    exact yields_handleList hx h ho
  case h_3 hm =>
    rw [← htype, hm]
    exact yields_handleInfo hx h ho _
  case h_4 hm =>
    rw [← htype, hm]
    exact yields_handleStatus hx h ho _
  case h_5 hm =>
    rw [← htype, hm]
    exact yields_handleMsg hx h ho _
  case h_6 hm =>
    rw [← htype, hm]
    exact yields_handleBroadcast hx h ho _
  case h_7 hm =>
    rw [← htype, hm]
    exact yields_handleQuit h ho
  case h_8 hm => exact absurd (htype.symm.trans hm) hcmd

end Handlers

/-! ## The thread's own part -/

/-- The line is a sign of life, whatever it says. -/
theorem yields_updateSessionActivity (h : Displays s r) (ho : r.seats t.slot = some o) :
    Yields x c now t s (updateSessionActivity (s.sessions t.slot).sockfd) ()
      (r.amendAt t.slot (alive now)) := by
  have hsession := h.taken t.slot o ho
  rw [updateSessionActivity_eq]
  apply yields_read rfl
  rw [sessionsFindBySockfd_onlyAt (h.onlyAt ho)]
  have htouched : touched (s.sessions t.slot) now = { s.sessions t.slot with
      lastActivity := now
      status := if (s.sessions t.slot).status = .inactivo then .activo
        else (s.sessions t.slot).status } := by rw [touched, if_pos hsession.active]
  have hsession' : SessionOf { o with info := alive now o.info }
      (touched (s.sessions t.slot) now) := by
    rw [htouched, hsession.status]
    exact ⟨hsession.active, hsession.registered, hsession.username, hsession.addr, rfl, rfl⟩
  refine yields_write h rfl ho ?_ ?_ hsession' ?_ (Room.amendAt_heard ..) (fun _ => rfl)
    fun s₁ _ h₁ => yields_ret h₁
  · rw [htouched]
  · rfl
  · rw [Room.amendAt_seats, ho]
    rfl

/-- An answer without which the loop would end. -/
theorem yields_sendOrBreak (h : Displays s r) (hj : r.seats j = some p) {m : Message} {fd : Int}
    {buf : Bytes} (hfd : fd = (s.sessions j).sockfd) (hbuf : buf = m.encode) :
    Yields x c now t s (sendOrBreak fd buf) .continue_ (r.tell p.client m) :=
  yields_send h hj hfd hbuf fun _ _ _ h₁ => yields_ret h₁

/-- What comes after the update of the activity. A user who quits is still seated at the end. -/
theorem yields_lineBody (hx : x.Manages) (h : Displays s r) (ho : r.seats t.slot = some o)
    {line : Bytes} (hin : InBounds line) {fd : Int} (hfd : fd = (s.sessions t.slot).sockfd) :
    if requestOf line = .quit then
      Yields x c now t s (lineBody fd line) .break_ (r.tell o.client .bye)
    else Yields x c now t s (lineBody fd line) .continue_ (serve r t.slot o (requestOf line)) := by
  by_cases hping : line = ascii "PING\n"
  · have hrequest : requestOf line = .ping := if_pos hping
    rw [hrequest, if_neg Request.noConfusion, lineBody, if_pos hping]
    exact yields_sendOrBreak h ho hfd rfl
  by_cases hquit : line = ascii "QUIT\n"
  · have hrequest : requestOf line = .quit := by rw [requestOf, if_neg hping, if_pos hquit]
    rw [if_pos hrequest, lineBody, if_neg hping, if_pos hquit]
    refine yields_send (m := .bye) h ho hfd rfl fun _ _ _ h₁ => ?_
    exact yields_ret h₁
  have hrequest : requestOf line ≠ .quit := by
    rw [requestOf, if_neg hping, if_neg hquit]
    split <;> exact Request.noConfusion
  rw [if_neg hrequest, lineBody, if_neg hping, if_neg hquit, if_neg (not_not.2 hin)]
  by_cases hcmd : lineCommand line = .invalid
  · rw [if_pos hcmd, requestOf, if_neg hping, if_neg hquit, hcmd]
    exact yields_sendOrBreak h ho hfd rfl
  · rw [if_neg hcmd]
    exact yields_bind (yields_handlerOf hx h ho hping hquit hcmd) fun _ _ _ h₁ => yields_ret h₁

end Server

end ChatMultithread
