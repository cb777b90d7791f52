import ChatMultithread.Client.Register
import ChatMultithread.EndToEnd.PrivateMessage
import ChatMultithread.Server.Proofs.Events

/-!
# Registration from end to end

A client that registers takes the line behind its welcome for the answer to its `REGISTER`. The
server makes the session visible to broadcasts before it answers, and the monitor writes to sessions
that have not registered. As long as nobody else writes to a connection between its welcome and its
answer, the client and the server agree on whether it is registered.

The client is a function of the stream it receives, so it takes no steps of its own here: what it
has sent is read off what has been delivered to it.
-/

namespace ChatMultithread

open Lib Lib.HandleTable

namespace Server

/-- What the thread sends first. -/
def welcomeLine : Bytes := ascii "WELCOME|CHAT/1.0\n"

/-- The bytes that `recv_line` has returned to the thread of `c`. -/
def readBy (c : Conn) (log : List Event) : Bytes :=
  (log.filterMap fun
    | .received d line => if d = c then some line else none
    | _ => none).reverse.flatten

/-- What `client_register(u)` at the other end of `c` has sent. -/
def sentOn (u : Bytes) (c : Conn) (log : List Event) : Bytes :=
  (clientRegister clientInit u true (bytesIn (receivedBy c log).flatten)).sent

/-- `client_register(u)` runs at the other end of `c`, and the connection does not fail. -/
def Connected (u : Bytes) (c : Conn) (s : Server) : Label → Prop
  | .client d (.line raw) => d = c → readBy c s.log ++ raw <+: sentOn u c s.log
  | .client d .hangup => d ≠ c
  | .client d (.go _ sent) => d = c → sent = true
  | .acceptor _ | .monitor _ _ | .signal => True

/-- The operation writes to the connection, if its send is whole. -/
def Reaches (s : Server) (c : Conn) (sent : Bool) : Op → Prop
  | .send fd _ => sent = true ∧ s.fds fd = some c
  | .broadcastAll _ => ∃ i, Registered s.sessions i ∧ s.fds (s.sessions i).sockfd = some c
  | .broadcastExcept _ fd => ∃ i, Registered s.sessions i ∧
      s.fds (s.sessions i).sockfd = some c ∧ (s.sessions i).sockfd ≠ fd
  | _ => False

/-- The monitor's next send writes to the connection. -/
def NoticeReaches (s : Server) (c : Conn) (sent : Bool) : MonitorPc → Prop
  | .sending (n :: _) => 0 ≤ n.sockfd ∧ sent = true ∧ s.fds n.sockfd = some c
  | .tick | .sending [] | .done => False

/-- While the connection has received nothing but its welcome, nobody else writes to it. -/
def Undisturbed (c : Conn) (s : Server) : Label → Prop
  | .client d (.go _ sent) => receivedBy c s.log = [welcomeLine] → d ≠ c →
      ∀ o ∈ s.nextOp d, ¬ Reaches s c sent o
  | .monitor _ sent => receivedBy c s.log = [welcomeLine] → ¬ NoticeReaches s c sent s.monitor
  | .client _ (.line _) | .client _ .hangup | .acceptor _ | .signal => True

instance (u : Bytes) (c : Conn) (s : Server) (l : Label) : Decidable (Connected u c s l) :=
  match l with
  | .client _ (.line _) => inferInstanceAs (Decidable (_ → _ <+: _))
  | .client _ .hangup => inferInstanceAs (Decidable (_ ≠ _))
  | .client _ (.go _ _) => inferInstanceAs (Decidable (_ → _))
  | .acceptor _ | .monitor _ _ | .signal => isTrue trivial

instance (s : Server) (c : Conn) (sent : Bool) (o : Op) : Decidable (Reaches s c sent o) :=
  match o with
  | .send _ _ => inferInstanceAs (Decidable (_ ∧ _))
  | .broadcastAll _ | .broadcastExcept _ _ => inferInstanceAs (Decidable (∃ _, _))
  | .sessionsFindBySockfd _ | .touchActivity _ | .readSockfd | .readAddr | .readUsername
  | .usernameExists _ | .addSession _ _ | .findUserFd _ | .getAllUsers _ | .getUserInfo _
  | .setUserStatus _ _ | .undefinedBehaviour => isFalse id

instance (s : Server) (c : Conn) (sent : Bool) (pc : MonitorPc) :
    Decidable (NoticeReaches s c sent pc) :=
  match pc with
  | .sending (_ :: _) => inferInstanceAs (Decidable (_ ∧ _))
  | .tick | .sending [] | .done => isFalse id

instance (c : Conn) (s : Server) (l : Label) : Decidable (Undisturbed c s l) :=
  match l with
  | .client _ (.go _ _) => inferInstanceAs (Decidable (_ → _ → ∀ o ∈ s.nextOp _, _))
  | .monitor _ _ => inferInstanceAs (Decidable (_ → ¬ _))
  | .client _ (.line _) | .client _ .hangup | .acceptor _ | .signal => isTrue trivial

/-- The client at the other end of `c` and the server agree on its registration as `u`. -/
structure Agrees (x : Externs) (timeout : Int) (u : Bytes) (c : Conn) (s : Server) : Prop where
  /-- `client_register` returns `CLIENT_OK` exactly when `add_session(u)` was executed. -/
  result : ∀ r, Returns u (receivedBy c s.log).flatten r →
    ((∃ state, r = .ok state) ↔ .named c u ∈ s.log)
  /-- The line it reads behind its welcome is what the thread has answered to its `REGISTER`. -/
  reply : ∀ input line rest,
    clientRecvLine maxMsgLen (bytesIn (receivedBy c s.log).flatten) = .line welcomeLine input →
    clientRecvLine maxMsgLen input = .line line rest →
    ∃ post past aim, s.log = post ++ .delivered (.client c) aim c line :: past ∧
      lastLine c past = some (protoRegister u)
  /-- Once the server has received the `REGISTER`, nothing but steps of the thread is needed for
      `client_register` to return. -/
  proceeds : readBy c s.log ≠ [] → ∃ n s' r,
    (serverSystem x timeout).run s (turns c n) = some s' ∧
      Returns u (receivedBy c s'.log).flatten r

variable {x : Externs} {s s' : Server} {a : Lives} {c d : Conn} {u : Bytes} {t : Thread}

/-! ## The thread of the connection -/

/-- How far a registration has come: nothing written yet, the welcome written, the `REGISTER`
    received, `add_session` executed, or one of the two answers written. -/
inductive Phase where
  | fresh | welcomed | asked | added | refused | confirmed
  deriving DecidableEq

/-- A frame of the given type. -/
def Replies (word buf : Bytes) : Prop :=
  IsFrame msgTerminatorChar (maxMsg - 1) buf ∧ (protoParseType (cstr buf)).1 = word

/-- The operations of the thread behind `fd` while it handles `REGISTER|u`: it sends one answer to
    its own connection, and confirms what it has added. -/
def registerMonitor (u : Bytes) (fd : Int) : Monitor Op Op.Resp Phase where
  allows p
    | .addSession user _ => p = .asked ∧ user = u
    | .send fd' buf => fd' = fd ∧
        (p = .asked ∧ Replies srvError buf ∨ p = .added ∧ Replies srvRegisterOk buf)
    | .broadcastAll _ | .broadcastExcept _ _ | .setUserStatus _ _ | .undefinedBehaviour => False
    | _ => True
  answers _
    | .readSockfd, r => r = fd
    | _, _ => True
  next p
    | .addSession _ _, _ => .added
    | .send _ _, _ => if p = .asked then .refused else .confirmed
    | _, _ => p

/-- An answer has been written. -/
def Phase.Answered (p : Phase) : Prop := p = .refused ∨ p = .confirmed

theorem replies_error {op code desc : Bytes} (hop : msgTerminatorChar ∉ op)
    (hcode : msgTerminatorChar ∉ code) (hdesc : msgTerminatorChar ∉ desc) :
    Replies srvError (buildError maxMsg op code desc) := by
  have hargs : ∀ arg ∈ [op, code, desc], msgTerminatorChar ∉ arg := by
    simp only [List.forall_mem_cons]
    exact ⟨hop, hcode, hdesc, List.forall_mem_nil _⟩
  exact ⟨isFrame_lineOf (by decide) hargs, protoParseType_lineOf (by decide) _⟩

theorem replies_registerOk (hu : ShortName u) (addr : InAddr) :
    Replies srvRegisterOk (buildRegisterOk maxMsg u (sockaddrToIpString addr)) := by
  have hargs : ∀ arg ∈ [u, sockaddrToIpString addr, statusActive], msgTerminatorChar ∉ arg := by
    simp only [List.forall_mem_cons]
    exact ⟨hu.not_mem (by decide) (by decide),
      not_mem_sockaddrToIpString _ (by decide) (by decide), by decide, List.forall_mem_nil _⟩
  exact ⟨isFrame_lineOf (by decide) hargs, protoParseType_lineOf (by decide) _⟩

theorem protoRegister_eq (hu : ShortName u) :
    protoRegister u = cmdRegister ++ fieldSepChar :: u ++ [msgTerminatorChar] := by
  apply protoBuild_one
  have hlen := hu.length_lt
  have hword : cmdRegister.length = 8 := rfl
  simp only [maxUsernameLen] at hlen
  simp only [maxMsgLen, maxLineLen]
  omega

/-- The line of a registration as the server's parser reads it. -/
theorem lineMessage_register (hu : ShortName u) :
    InBounds (protoRegister u) ∧ lineCommand (protoRegister u) = .register ∧
      (lineMessage (protoRegister u)).arg1 = u := by
  have hword : ∀ b ∈ cmdRegister, marks.Plain b := by decide +kernel
  obtain ⟨hin, hmsg⟩ := lineMessage_one hword hu.plain
  rw [← protoRegister_eq hu] at hin hmsg
  refine ⟨hin, ?_, ?_⟩
  · rw [← lineMessage_type, hmsg]
    exact show commandType cmdRegister = .register by decide
  · rw [hmsg]

/-- A `REGISTER` is handled within what the monitor allows. -/
theorem register_safe (hu : ShortName u) (fd : Int) :
    (registerMonitor u fd).Safe (fun p _ => p.Answered) .asked
      (clientLine fd (protoRegister u)) := by
  obtain ⟨hin, hcmd, harg⟩ := lineMessage_register hu
  have hlen : (protoRegister u).length < maxMsg := by
    have hshort := hu.length_lt
    have hword : cmdRegister.length = 8 := rfl
    rw [protoRegister_eq hu]
    simp only [maxUsernameLen] at hshort
    simp only [List.length_append, List.length_cons, List.length_nil, maxMsg, maxLineLen]
    omega
  have hbody : (registerMonitor u fd).Safe (fun p _ => p.Answered) .asked
      (lineBody fd (protoRegister u)) := by
    have hping : protoRegister u ≠ ascii "PING\n" := by
      rw [protoRegister_eq hu]
      intro h
      cases h
    have hquit : protoRegister u ≠ ascii "QUIT\n" := by
      rw [protoRegister_eq hu]
      intro h
      cases h
    rw [lineBody, if_neg hping, if_neg hquit, if_neg (not_not.2 hin),
      if_neg (by rw [hcmd]; decide), Monitor.safe_bind]
    have hhandler : handlerOf (lineMessage (protoRegister u)) =
        handleRegister (lineMessage (protoRegister u)) := by
      rw [handlerOf, lineMessage_type, hcmd]
    rw [hhandler, handleRegister_eq, harg, hu.valid]
    refine ⟨trivial, fun fd' hfd => ⟨trivial, fun exists_ _ => ?_⟩⟩
    obtain rfl : fd' = fd := hfd
    dsimp only
    split
    · exact ⟨⟨rfl, .inl ⟨rfl, replies_error (by decide) (by decide) (by decide)⟩⟩,
        fun _ _ => .inl rfl⟩
    · exact ⟨⟨rfl, rfl⟩, fun _ _ => ⟨trivial, fun addr _ =>
        ⟨⟨rfl, .inr ⟨rfl, replies_registerOk hu addr⟩⟩, fun _ _ => .inr rfl⟩⟩⟩
  rw [clientLine_eq fd hlen, Monitor.safe_bind, updateSessionActivity_eq]
  refine ⟨trivial, fun session _ => ?_⟩
  cases session with
  | none => exact hbody
  | some i => exact ⟨trivial, fun _ _ => hbody⟩

/-! ## What has been written to the connection -/

section Log

variable (c) (past new : List Event)

theorem readBy_append : readBy c (new ++ past) = readBy c past ++ readBy c new := by
  simp [readBy]

variable {c} {past new}

theorem readBy_eq_nil (h : ∀ line, .received c line ∉ new) : readBy c new = [] := by
  rw [readBy, List.flatten_eq_nil_iff]
  intro line hline
  obtain ⟨e, he, hread⟩ := List.mem_filterMap.1 (List.mem_reverse.1 hline)
  split at hread
  · split at hread
    · rename_i hd
      subst hd
      exact absurd he (h _)
    · cases hread
  · cases hread

end Log

/-- A string that begins like an event. -/
def Begins (buf : Bytes) : Prop := ∃ word ∈ eventWords, ∃ text, buf = word ++ fieldSepChar :: text

/-- The first string is an event. -/
def Spoiled (heard : List Bytes) : Prop := ∃ buf ∈ heard.head?, Begins buf

theorem begins_lineOf {word : Bytes} (hword : word ∈ eventWords) (arg : Bytes)
    (args : List Bytes) : Begins (snprintf maxMsg (lineOf word (arg :: args))) := by
  obtain ⟨m, -, heq⟩ := snprintf_lineOf_cons (isWord_of_eventWords word hword) arg args
  exact ⟨word, hword, _, heq⟩

/-- What others write to a connection begins like an event. -/
theorem begins_of_spoken {past : List Event} {src : Source} {aim : Option Conn} {buf : Bytes}
    (h : Spoken x past (.delivered src aim c buf)) (hsrc : src ≠ .client c) : Begins buf := by
  cases src with
  | monitor =>
    obtain ⟨name, rfl, -⟩ := h
    exact begins_lineOf (show srvStatusChanged ∈ eventWords by decide) _ _
  | client d =>
    obtain ⟨name, -, ⟨rfl, -⟩ | ⟨line, -, hevent⟩⟩ := h
    · exact absurd rfl hsrc
    · cases hevent with
      | deliver | broadcast | statusChanged => exact begins_lineOf (by decide) _ _

theorem Spoiled.append {heard : List Bytes} (h : Spoiled heard) (more : List Bytes) :
    Spoiled (heard ++ more) := by
  obtain ⟨buf, hbuf, hbegins⟩ := h
  refine ⟨buf, ?_, hbegins⟩
  cases heard with
  | nil => cases hbuf
  | cons first rest => exact hbuf

/-- What is written elsewhere, or not delivered, the connection does not receive. -/
theorem receivedBy_deliver {src : Source} {aim : Option Conn} {fd : Int} {buf : Bytes}
    (hfd : s.fds fd ≠ some c) : receivedBy c (s.deliver src aim fd buf).log = receivedBy c s.log := by
  rw [deliver_log]
  split
  · rfl
  · rename_i dst hdst
    have hdc : dst ≠ c := by
      rintro rfl
      exact hfd hdst
    rw [← List.singleton_append, receivedBy_append]
    simp [receivedBy, hdc]

theorem receivedBy_deliverAll {src : Source} {sends : List (Int × Bytes)}
    (hsends : ∀ p ∈ sends, s.fds p.1 ≠ some c) :
    receivedBy c (s.deliverAll src sends).log = receivedBy c s.log := by
  have hnone : receivedBy c (s.deliveries src sends) = [] := by
    apply receivedBy_eq_nil
    intro src' aim buf hmem
    obtain ⟨p, hp, dst, hdst, heq⟩ := mem_deliveries.1 hmem
    cases heq
    exact hsends p hp hdst
  rw [deliverAll_log, receivedBy_append, hnone, List.append_nil]

/-- An operation of another thread that does not reach the connection writes nothing to it. -/
theorem receivedBy_perform (hb : x.Broadcasts) {now : Int} {sent : Bool} {o : Op} {r : o.Resp}
    {target : Option (Int × Option Conn)} (hop : s.perform x d t now sent o = some (r, s', target))
    (hquiet : ¬ Reaches s c sent o) : receivedBy c s'.log = receivedBy c s.log := by
  cases o
  case undefinedBehaviour => cases hop
  case addSession user fd =>
    cases hop
    rw [← List.singleton_append, receivedBy_append]
    simp [receivedBy]
  case broadcastAll msg =>
    cases hop
    apply receivedBy_deliverAll
    intro p hp hfd
    obtain ⟨-, i, hi, heq⟩ := (hb.mem_broadcastAll _ _ p).1 hp
    exact hquiet ⟨i, hi, by rw [heq]; exact hfd⟩
  case broadcastExcept msg fd =>
    cases hop
    apply receivedBy_deliverAll
    intro p hp hfd
    obtain ⟨-, hne, i, hi, heq⟩ := (hb.mem_broadcastExcept _ _ _ p).1 hp
    exact hquiet ⟨i, hi, by rw [heq]; exact hfd, by rw [heq]; exact hne⟩
  case send fd buf =>
    cases hop
    split
    · rename_i hsent
      exact receivedBy_deliver fun hfd => hquiet ⟨hsent, hfd⟩
    · rfl
  all_goals
    cases hop
    rfl

/-- A step of others that is quiet writes nothing to a connection that waits for its answer. -/
theorem receivedBy_of_undisturbed (hb : x.Broadcasts) (ha : Tracks s a) {l : Label}
    (hok : Undisturbed c s l) (hs : Step x s l s') (hl : ∀ choice, l ≠ .client c choice)
    (hheard : receivedBy c s.log = [welcomeLine]) : receivedBy c s'.log = receivedBy c s.log := by
  cases hs with
  | @perform d t now sent o k r s₁ target ht hpc hop =>
    have hdc : d ≠ c := by
      rintro rfl
      exact hl _ rfl
    rw [setThread_log]
    exact receivedBy_perform hb hop (hok hheard hdc o (nextOp_eq_some.2 ⟨t, k, ht, hpc⟩))
  | @welcome d t now ht hpc =>
    have hdc : d ≠ c := by
      rintro rfl
      exact hl _ rfl
    rw [setThread_log]
    apply receivedBy_deliver
    have hown := ha.fds_placed (ha.placed_sockfd ht (by simp [Holding, hpc]) (by simp [hpc]))
    rw [hown]
    exact fun h => hdc (Option.some.inj h)
  | @notify now n rest hpc hfd =>
    apply receivedBy_deliver
    intro hfds
    have hquiet := hok hheard
    rw [hpc] at hquiet
    exact hquiet ⟨hfd, rfl, hfds⟩
  | line | close | reject | undoClose =>
    simp only [setThread_log, close_log]
    rw [← List.singleton_append, receivedBy_append]
    simp [receivedBy]
  | start | welcomeFailed | turn | hangup | continue_ | break_ | remove | removeInvalid
  | removeMissing | acceptMove | connection | addFull | add | findNone | find | create
  | createFailed | undoMissing | undo | undoInvalid | store | tick | monitorMove | signal => rfl

/-! ## The phases -/

/-- The server has received the `REGISTER`. -/
def Phase.Asked (p : Phase) : Prop := p ≠ .fresh ∧ p ≠ .welcomed

instance (p : Phase) : Decidable p.Asked := inferInstanceAs (Decidable (_ ∧ _))

/-- Where the thread stands in a phase. -/
def Stands (u : Bytes) (t : Thread) (p : Phase) : Prop :=
  match t.pc with
  | .start | .welcome => p = .fresh
  | .handling code => p.Asked ∧ (registerMonitor u t.sockfd).Safe (fun p _ => p.Answered) p code
  | .loop | .receiving | .removing | .closing _ | .done => p = .welcomed ∨ p.Answered

/-- The thread has answered the `REGISTER`, right behind its welcome. -/
def AnsweredWith (u : Bytes) (c : Conn) (word : Bytes) (log : List Event) : Prop :=
  ∃ post past aim reply, log = post ++ .delivered (.client c) aim c reply :: past ∧
    receivedBy c past = [welcomeLine] ∧ lastLine c past = some (protoRegister u) ∧
    Replies word reply

/-- What has been written to the connection in a phase. -/
def Told (u : Bytes) (c : Conn) (log : List Event) : Phase → Prop
  | .fresh => receivedBy c log = [] ∨ Spoiled (receivedBy c log)
  | .welcomed => receivedBy c log = [welcomeLine] ∨ Spoiled (receivedBy c log)
  | .asked | .added => receivedBy c log = [welcomeLine]
  | .refused => AnsweredWith u c srvError log
  | .confirmed => AnsweredWith u c srvRegisterOk log

/-- The invariant. -/
structure Shake (u : Bytes) (c : Conn) (s : Server) (p : Phase) : Prop where
  born : s.threads c = none → p = .fresh
  stands : ∀ t, s.threads c = some t → Stands u t p
  read : readBy c s.log = if p.Asked then protoRegister u else []
  line : p.Asked → lastLine c s.log = some (protoRegister u)
  named : .named c u ∈ s.log ↔ p = .added ∨ p = .confirmed
  told : Told u c s.log p

theorem AnsweredWith.append {word : Bytes} {log : List Event} (h : AnsweredWith u c word log)
    (new : List Event) : AnsweredWith u c word (new ++ log) := by
  obtain ⟨post, past, aim, reply, rfl, hrest⟩ := h
  exact ⟨new ++ post, past, aim, reply, (List.append_assoc _ _ _).symm, hrest⟩

/-- The client has its answer as the second string. -/
theorem AnsweredWith.heard {word : Bytes} {log : List Event} (h : AnsweredWith u c word log) :
    ∃ reply rest, receivedBy c log = welcomeLine :: reply :: rest ∧ Replies word reply ∧
      ∃ post past aim, log = post ++ .delivered (.client c) aim c reply :: past ∧
        lastLine c past = some (protoRegister u) := by
  obtain ⟨post, past, aim, reply, rfl, hpast, hline, hreply⟩ := h
  refine ⟨reply, receivedBy c post, ?_, hreply, post, past, aim, rfl, hline⟩
  have hone : receivedBy c (.delivered (.client c) aim c reply :: past) =
      receivedBy c past ++ [reply] := by simp [receivedBy]
  rw [receivedBy_append, hone, hpast]
  rfl

/-! ## What the client has sent -/

theorem replies_welcomeLine : Replies srvWelcome welcomeLine := by
  refine ⟨⟨by decide, by decide, by decide, .inr (by decide)⟩, by decide⟩

theorem sentOn_welcomed {log : List Event} {rest : List Bytes}
    (h : receivedBy c log = welcomeLine :: rest) : sentOn u c log = protoRegister u := by
  rw [sentOn, h, List.flatten_cons, bytesIn_append]
  exact (clientRegister_welcome _ _ replies_welcomeLine.1 replies_welcomeLine.2 _).1

theorem Spoiled.begins {heard : List Bytes} (h : Spoiled heard) :
    ∃ word, IsWord word ∧ word ≠ srvWelcome ∧
      ∃ text, heard.flatten = word ++ fieldSepChar :: text := by
  obtain ⟨buf, hbuf, word, hword, text, rfl⟩ := h
  obtain ⟨rest, rfl⟩ := List.head?_eq_some_iff.1 hbuf
  refine ⟨word, isWord_of_eventWords word hword, ?_, text ++ rest.flatten, by simp⟩
  rintro rfl
  exact absurd hword (by decide)

theorem sentOn_spoiled {log : List Event} (h : Spoiled (receivedBy c log)) :
    sentOn u c log = [] := by
  obtain ⟨word, hword, hne, text, htext⟩ := h.begins
  have hsent := (clientRegister_begin clientInit u hword hne text []).1
  rw [List.append_nil] at hsent
  rw [sentOn, htext, hsent]

/-- A frame at the beginning of a single line is that line. -/
theorem frame_prefix_eq {cap : Nat} {body raw : Bytes} (hbody : msgTerminatorChar ∉ body)
    (hlen : body.length + 1 < cap) (hraw : IsFrame msgTerminatorChar cap raw)
    (hpre : raw <+: body ++ [msgTerminatorChar]) : raw = body ++ [msgTerminatorChar] := by
  have hle := hpre.length_le
  rw [List.length_append, List.length_singleton] at hle
  have hlast := hraw.last.resolve_left (by omega)
  apply hpre.eq_of_length
  rw [List.length_append, List.length_singleton]
  by_contra hne
  have hshort : raw <+: body := by
    apply List.prefix_of_prefix_length_le hpre (List.prefix_append _ _)
    omega
  exact hbody (hshort.subset (List.mem_of_getLast? hlast))

/-- The only line that the client sends. -/
theorem raw_of_connected (hu : ShortName u) {raw : Bytes}
    (hraw : IsFrame msgTerminatorChar (maxLineLen - 1) raw) (hpre : raw <+: protoRegister u) :
    cstr raw = protoRegister u := by
  have hline := protoRegister_eq hu
  have hlen := hu.length_lt
  have hword : cmdRegister.length = 8 := rfl
  have hbody : msgTerminatorChar ∉ cmdRegister ++ fieldSepChar :: u := by
    simp only [List.mem_append, List.mem_cons, not_or]
    exact ⟨by decide, by decide, hu.not_mem (by decide) (by decide)⟩
  rw [hline] at hpre ⊢
  rw [frame_prefix_eq hbody ?_ hraw hpre]
  · apply cstr_of_not_mem
    simp only [List.mem_append, List.mem_cons, List.not_mem_nil, not_or, or_false]
    exact ⟨⟨by decide, by decide, hu.not_mem (by decide) (by decide)⟩, by decide⟩
  · simp only [maxUsernameLen] at hlen
    simp only [List.length_append, List.length_cons, maxLineLen]
    omega

/-! ## Steps -/

/-- A step that leaves the log alone keeps the phase, as long as the thread stands where it
    should. -/
theorem Shake.move {p : Phase} (h : Shake u c s p) (hlog : s'.log = s.log)
    (ht' : s'.threads c = some t) (hstands : Stands u t p) : Shake u c s' p := by
  have hnone : s'.threads c ≠ none := by
    rw [ht']
    exact Option.some_ne_none t
  refine ⟨fun h => absurd h hnone, fun t' ht => ?_, ?_, ?_, ?_, ?_⟩
  · obtain rfl := Option.some.inj (ht'.symm.trans ht)
    exact hstands
  · rw [hlog]
    exact h.read
  · rw [hlog]
    exact h.line
  · rw [hlog]
    exact h.named
  · rw [hlog]
    exact h.told

theorem Shake.closed {p : Phase} (h : Shake u c s p) (d : Conn) (owner : Option Conn) :
    Shake u c { s with log := .closed d owner :: s.log } p := by
  refine ⟨h.born, h.stands, h.read, h.line, ?_, ?_⟩
  · simpa using h.named
  · have htold := h.told
    cases p with
    | fresh | welcomed | asked | added => exact htold
    | refused | confirmed => exact AnsweredWith.append htold [.closed d owner]

/-- The steps of others keep the phase. -/
theorem Shake.other {p : Phase} (h : Shake u c s p) (hb : x.Broadcasts) (ha : Tracks s a)
    (hspeaks' : Speaks x s') {l : Label} (hok : Undisturbed c s l) (hs : Step x s l s')
    (hl : ∀ choice, l ≠ .client c choice) : Shake u c s' p := by
  obtain ⟨new, hlog, hauthor, -⟩ := log_of_step hs
  have hothers : ∀ e ∈ new, author e ≠ some c := by
    intro e he hc
    obtain ⟨choice, rfl⟩ := hauthor e he c hc
    exact hl choice rfl
  have hbegins : ∀ buf ∈ receivedBy c new, Begins buf := by
    intro buf hbuf
    obtain ⟨src, aim, hmem⟩ := mem_receivedBy.1 hbuf
    have hspoken := hspeaks'.spoken hb
    rw [hlog] at hspoken
    obtain ⟨post, past, -, hentry⟩ := hspoken.of_mem (List.mem_append_left _ hmem)
    exact begins_of_spoken hentry fun hsrc => hothers _ hmem (author_delivered.2 hsrc)
  have hquiet := receivedBy_of_undisturbed hb ha hok hs hl
  refine ⟨fun hnone => ?_, fun t ht => ?_, ?_, fun hasked => ?_, ?_, ?_⟩
  · cases ht : s.threads c with
    | none => exact h.born ht
    | some t =>
      rw [threads_of_step ha hs ht hl] at hnone
      cases hnone
  · rcases thread_of_other ha hs hl ht with hold | ⟨hnone, hpc, -⟩
    · exact h.stands t hold
    · rw [Stands, hpc]
      exact h.born hnone
  · have hnone : readBy c new = [] := readBy_eq_nil fun line hmem => hothers _ hmem rfl
    rw [hlog, readBy_append, hnone, List.append_nil]
    exact h.read
  · rw [(memory_of_step hs hl).2]
    exact h.line hasked
  · rw [hlog, List.mem_append, ← h.named]
    exact or_iff_right fun hmem => hothers _ hmem rfl
  · have htold := h.told
    cases p with
    | fresh =>
      rw [Told, hlog, receivedBy_append]
      rcases htold with hnil | hspoiled
      · rw [hnil, List.nil_append]
        cases hnew : receivedBy c new with
        | nil => exact .inl rfl
        | cons buf rest => exact .inr ⟨buf, rfl, hbegins buf (hnew ▸ List.mem_cons_self)⟩
      · exact .inr (hspoiled.append _)
    | welcomed =>
      rcases htold with hheard | hspoiled
      · exact .inl ((hquiet hheard).trans hheard)
      · rw [Told, hlog, receivedBy_append]
        exact .inr (hspoiled.append _)
    | asked | added => exact (hquiet htold).trans htold
    | refused | confirmed =>
      rw [hlog]
      exact AnsweredWith.append htold new

/-- The answer to a `REGISTER`. -/
theorem Shake.answer {p p' : Phase} {word reply : Bytes} {aim : Option Conn} (h : Shake u c s p)
    (hp : p = .asked ∧ p' = .refused ∧ word = srvError ∨
      p = .added ∧ p' = .confirmed ∧ word = srvRegisterOk)
    (hlog : s'.log = .delivered (.client c) aim c reply :: s.log) (hreply : Replies word reply)
    (ht' : s'.threads c = some t) (hstands : Stands u t p') : Shake u c s' p' := by
  have hnone : s'.threads c ≠ none := by
    rw [ht']
    exact Option.some_ne_none t
  have hsame : ∀ t', s'.threads c = some t' → Stands u t' p' := by
    intro t' ht
    obtain rfl := Option.some.inj (ht'.symm.trans ht)
    exact hstands
  have hread : readBy c s'.log = readBy c s.log := by
    rw [hlog]
    rfl
  have hnamed : .named c u ∈ s'.log ↔ .named c u ∈ s.log := by
    rw [hlog]
    simp
  rcases hp with ⟨rfl, rfl, rfl⟩ | ⟨rfl, rfl, rfl⟩
  all_goals
    have hline := h.line (by decide)
    refine ⟨fun h => absurd h hnone, hsame, hread.trans h.read, fun _ => ?_, ?_, ?_⟩
    · rw [hlog]
      exact hline
    · rw [hnamed, h.named]
      decide
    · exact ⟨[], s.log, aim, reply, hlog, h.told, hline, hreply⟩

/-- The operations of the thread of a registration. -/
theorem Shake.perform {p : Phase} (h : Shake u c s p) (ha : Tracks s a)
    (ht : s.threads c = some t) {now : Int} {o : Op} {k : o.Resp → ServerProg LoopExit}
    {r : o.Resp} {target : Option (Int × Option Conn)} (hpc : t.pc = .handling (.call o k))
    (hop : s.perform x c t now true o = some (r, s', target)) :
    ∃ p', Shake u c (s'.setThread c { t with pc := .handling (k r), target := target }) p' := by
  have hstands := h.stands t ht
  rw [Stands, hpc] at hstands
  obtain ⟨hasked, hallow, hsafe⟩ := hstands
  have hold : Holding t := by simp [Holding, hpc]
  have hstart : t.pc ≠ .start := by simp [hpc]
  have hplaced := ha.placed_sockfd ht hold hstart
  cases o
  case undefinedBehaviour => exact hallow.elim
  case broadcastAll msg => exact hallow.elim
  case broadcastExcept msg fd => exact hallow.elim
  case setUserStatus user status => exact hallow.elim
  case addSession user fd =>
    cases hop
    obtain ⟨rfl, rfl⟩ := hallow
    refine ⟨.added, fun hnone => ?_, fun t' ht' => ?_, ?_, fun _ => h.line hasked, ?_, ?_⟩
    · rw [setThread_threads_self] at hnone
      cases hnone
    · rw [setThread_threads_self] at ht'
      cases ht'
      exact ⟨by decide, hsafe () trivial⟩
    · exact h.read
    · simp
    · exact h.told
  case send fd buf =>
    cases hop
    obtain ⟨rfl, hreply⟩ := hallow
    have hlog : ∀ t', ((if true = true then s.deliver (.client c) (aimOf c t t.sockfd) t.sockfd buf
        else s).setThread c t').log = .delivered (.client c) (aimOf c t t.sockfd) c buf :: s.log := by
      intro t'
      rw [if_pos rfl, setThread_log, deliver_log, ha.fds_placed hplaced]
    rcases hreply with ⟨rfl, hreply⟩ | ⟨rfl, hreply⟩
    · exact ⟨.refused, h.answer (.inl ⟨rfl, rfl, rfl⟩) (hlog _) hreply (setThread_threads_self _ _ _)
        ⟨by decide, hsafe _ trivial⟩⟩
    · exact ⟨.confirmed, h.answer (.inr ⟨rfl, rfl, rfl⟩) (hlog _) hreply (setThread_threads_self _ _ _)
        ⟨by decide, hsafe _ trivial⟩⟩
  case readSockfd =>
    cases hop
    refine ⟨p, h.move rfl (setThread_threads_self _ _ _) ⟨hasked, hsafe _ ?_⟩⟩
    exact ha.sockfd_eq ht hold hstart
  all_goals
    cases hop
    exact ⟨p, h.move rfl (setThread_threads_self _ _ _) ⟨hasked, hsafe _ trivial⟩⟩

/-- A line that the thread receives is the `REGISTER`, the first one. -/
theorem Shake.line_step {p : Phase} (h : Shake u c s p) (hu : ShortName u)
    (ht : s.threads c = some t) (hpc : t.pc = .receiving) {raw : Bytes}
    (hraw : IsFrame msgTerminatorChar (maxLineLen - 1) raw)
    (hok : readBy c s.log ++ raw <+: sentOn u c s.log) :
    Shake u c ({ s with log := .received c (cstr raw) :: s.log }.setThread c
      { t with pc := .handling (clientLine t.sockfd (cstr raw)) }) .asked := by
  have hstands := h.stands t ht
  rw [Stands, hpc] at hstands
  have hwelcomed : p = .welcomed ∧ receivedBy c s.log = [welcomeLine] := by
    rcases hstands with rfl | hanswered
    · refine ⟨rfl, h.told.resolve_right fun hspoiled => hraw.ne_nil ?_⟩
      rw [sentOn_spoiled hspoiled] at hok
      exact (List.append_eq_nil_iff.1 (List.prefix_nil.1 hok)).2
    · -- The client sends nothing behind its `REGISTER`.
      have hasked : p.Asked := by
        rcases hanswered with rfl | rfl <;> decide
      have hheard : ∃ rest, receivedBy c s.log = welcomeLine :: rest := by
        have htold := h.told
        rcases hanswered with rfl | rfl
        · obtain ⟨reply, rest, hheard, -⟩ := AnsweredWith.heard htold
          exact ⟨_, hheard⟩
        · obtain ⟨reply, rest, hheard, -⟩ := AnsweredWith.heard htold
          exact ⟨_, hheard⟩
      obtain ⟨rest, hheard⟩ := hheard
      rw [sentOn_welcomed hheard, h.read, if_pos hasked] at hok
      have hlen := hok.length_le
      have hpos := List.length_pos_of_ne_nil hraw.ne_nil
      rw [List.length_append] at hlen
      omega
  obtain ⟨rfl, hheard⟩ := hwelcomed
  have hread : readBy c s.log = [] := h.read
  rw [sentOn_welcomed hheard, hread, List.nil_append] at hok
  have hline := raw_of_connected hu hraw hok
  rw [hline]
  refine ⟨fun hnone => ?_, fun t' ht' => ?_, ?_, fun _ => ?_, ?_, hheard⟩
  · rw [setThread_threads_self] at hnone
    cases hnone
  · rw [setThread_threads_self] at ht'
    cases ht'
    exact ⟨by decide, register_safe hu t.sockfd⟩
  · rw [setThread_log, ← List.singleton_append, readBy_append, hread]
    simp [readBy, Phase.Asked]
  · simp
  · have hnamed := h.named
    simp only [reduceCtorEq, or_self, iff_false] at hnamed
    simp [hnamed]

/-- A step of the thread takes the registration on. -/
theorem Shake.own {p : Phase} (h : Shake u c s p) (hu : ShortName u) (ha : Tracks s a)
    {choice : ClientChoice} (hok : Connected u c s (.client c choice))
    (hs : Step x s (.client c choice) s') : ∃ p', Shake u c s' p' := by
  cases hs with
  | start ht hpc =>
    have hstands := h.stands _ ht
    rw [Stands, hpc] at hstands
    exact ⟨p, h.move rfl (setThread_threads_self _ _ _) hstands⟩
  | @welcome _ t now ht hpc =>
    have hstands := h.stands _ ht
    rw [Stands, hpc] at hstands
    obtain rfl := hstands
    have hplaced := ha.placed_sockfd ht (by simp [Holding, hpc]) (by simp [hpc])
    have hlog : ∀ t', ((s.deliver (.client c) (some c) t.sockfd welcomeLine).setThread c t').log =
        .delivered (.client c) (some c) c welcomeLine :: s.log := by
      intro t'
      rw [setThread_log, deliver_log, ha.fds_placed hplaced]
    have hheard : receivedBy c (.delivered (.client c) (some c) c welcomeLine :: s.log) =
        receivedBy c s.log ++ [welcomeLine] := by simp [receivedBy]
    refine ⟨.welcomed, fun hnone => ?_, fun t' ht' => ?_, ?_, fun hasked => ?_, ?_, ?_⟩
    · rw [setThread_threads_self] at hnone
      cases hnone
    · rw [setThread_threads_self] at ht'
      cases ht'
      exact .inl rfl
    · exact (congrArg (readBy c) (hlog _)).trans h.read
    · exact absurd hasked (by decide)
    · have hnamed := h.named
      simp only [reduceCtorEq, or_self, iff_false] at hnamed ⊢
      rw [← welcomeLine, hlog]
      simpa using hnamed
    · rw [← welcomeLine, hlog, Told, hheard]
      rcases h.told with hnil | hspoiled
      · exact .inl (by rw [hnil, List.nil_append])
      · exact .inr (hspoiled.append _)
  | welcomeFailed ht hpc => exact absurd (hok rfl) (by decide)
  | turn ht hpc hto =>
    have hstands := h.stands _ ht
    rw [Stands, hpc] at hstands
    refine ⟨p, h.move rfl (setThread_threads_self _ _ _) ?_⟩
    rcases hto with ⟨-, rfl⟩ | ⟨-, rfl⟩
    · exact hstands
    · exact hstands
  | line ht hpc hraw => exact ⟨.asked, h.line_step hu ht hpc hraw (hok rfl)⟩
  | hangup => exact absurd rfl hok
  | perform ht hpc hop =>
    cases hok rfl
    exact h.perform ha ht hpc hop
  | continue_ ht hpc | break_ ht hpc =>
    have hstands := h.stands _ ht
    rw [Stands, hpc] at hstands
    exact ⟨p, h.move rfl (setThread_threads_self _ _ _) (.inr hstands.2)⟩
  | remove ht hpc | removeInvalid ht hpc | removeMissing ht hpc =>
    have hstands := h.stands _ ht
    rw [Stands, hpc] at hstands
    exact ⟨p, h.move rfl (setThread_threads_self _ _ _) hstands⟩
  | close ht hpc =>
    have hstands := h.stands _ ht
    rw [Stands, hpc] at hstands
    have hclosed := h.closed c
    exact ⟨p, (hclosed _).move rfl (setThread_threads_self _ _ _) hstands⟩

/-! ## Every run -/

theorem shake_init (timeout : Int) : Shake u c (serverInit timeout) .fresh where
  born _ := rfl
  stands t ht := by cases ht
  read := rfl
  line hasked := absurd hasked (by decide)
  named := by simp [serverInit]
  told := .inl rfl

theorem shake_reach (hx : x.KeepsSlots) (hb : x.Broadcasts) (hu : ShortName u) {timeout : Int}
    (hs : (serverSystem x timeout).ReachUnder
      (fun s l => Connected u c s l ∧ Undisturbed c s l) s) : ∃ p, Shake u c s p := by
  refine hs.invariant (P := fun s => ∃ p, Shake u c s p) ⟨.fresh, shake_init timeout⟩ ?_
  rintro s l s' hreach ⟨p, h⟩ ⟨hconnected, hundisturbed⟩ hl
  obtain ⟨a, ha, -⟩ := speaks_reach hx hreach.reach
  obtain ⟨-, -, hspeaks'⟩ := speaks_reach hx (hreach.reach.step hl)
  have hstep := step_cases hl
  by_cases hown : ∃ choice, l = .client c choice
  · obtain ⟨choice, rfl⟩ := hown
    exact h.own hu ha hconnected hstep
  · have hne : ∀ choice, l ≠ .client c choice := fun choice e => hown ⟨choice, e⟩
    exact ⟨p, h.other hb ha hspeaks' hundisturbed hstep hne⟩

/-- A thread that has received the `REGISTER` answers it. -/
theorem Shake.finish (hx : x.KeepsSlots) (timeout : Int)
    {code : ServerProg LoopExit} {p : Phase} (h : Shake u c s p) (ha : Tracks s a)
    (ht : s.threads c = some t) (hpc : t.pc = .handling code) :
    ∃ n s' p', (serverSystem x timeout).run s (turns c n) = some s' ∧ Shake u c s' p' ∧
      p'.Answered := by
  induction code generalizing s a t p with
  | ret exit =>
    have hstands := h.stands t ht
    rw [Stands, hpc] at hstands
    exact ⟨0, s, p, rfl, h, hstands.2⟩
  | call o k ih =>
    have hstands := h.stands t ht
    rw [Stands, hpc] at hstands
    have hdefined : o ≠ .undefinedBehaviour := by
      rintro rfl
      exact hstands.2.1.elim
    obtain ⟨r, s₁, target, hop⟩ := perform_defined (x := x) hdefined s c t 0 true
    have hstep := step_of_perform ht hpc hop
    obtain ⟨a', -, ha'⟩ := tracks_step hx ha (step_cases hstep)
    obtain ⟨p', h'⟩ := h.perform ha ht hpc hop
    obtain ⟨n, s', p'', hrun, hfinish⟩ := ih r h' ha' (setThread_threads_self _ _ _) rfl
    exact ⟨n + 1, s', p'', run_turns hstep hrun, hfinish⟩

/-! ## What the client makes of it -/

/-- On a stream with an answer `client_register` has returned what the answer says. -/
theorem AnsweredWith.returns {word : Bytes} (h : AnsweredWith u c word s.log) :
    ∃ r, Returns u (receivedBy c s.log).flatten r ∧
      ((∃ state, r = .ok state) ↔ word = srvRegisterOk) := by
  obtain ⟨reply, rest, hheard, ⟨hframe, htype⟩, -⟩ := h.heard
  refine ⟨registerReply clientInit (cstr reply), fun more => ?_, ?_⟩
  · rw [hheard, List.flatten_cons, List.flatten_cons]
    exact clientRegister_reply _ _ replies_welcomeLine.1 replies_welcomeLine.2 hframe more
  · rw [registerReply_ok_iff _ hframe, htype]

theorem returns_unique {stream : Bytes} {r r' : Except RegisterError ClientState}
    (h : Returns u stream r) (h' : Returns u stream r') : r = r' :=
  (h []).symm.trans (h' [])

/-- On a stream without an answer it has not returned `CLIENT_OK`. -/
theorem not_ok_of_told {p : Phase} (h : Told u c s.log p) (hp : ¬ p.Answered)
    {r : Except RegisterError ClientState} (hr : Returns u (receivedBy c s.log).flatten r) :
    ¬ ∃ state, r = .ok state := by
  have hend := hr []
  rw [List.append_nil] at hend
  rintro ⟨state, rfl⟩
  have hspoiled : ¬ Spoiled (receivedBy c s.log) := by
    intro hspoiled
    obtain ⟨word, hword, hne, text, htext⟩ := hspoiled.begins
    obtain ⟨e, he⟩ := (clientRegister_begin clientInit u hword hne text []).2
    rw [htext] at hend
    rw [List.append_nil, hend] at he
    cases he
  have hwelcomed : receivedBy c s.log ≠ [welcomeLine] := by
    intro hheard
    have hclosed := (clientRegister_welcome clientInit u
      replies_welcomeLine.1 replies_welcomeLine.2 []).2
    rw [hheard, List.flatten_singleton] at hend
    rw [List.append_nil, hend] at hclosed
    cases hclosed
  cases p with
  | fresh =>
    rcases h with hnil | h
    · rw [hnil] at hend
      cases hend
    · exact hspoiled h
  | welcomed =>
    rcases h with h | h
    · exact hwelcomed h
    · exact hspoiled h
  | asked | added => exact hwelcomed h
  | refused => exact hp (.inl rfl)
  | confirmed => exact hp (.inr rfl)

/-- With nothing but its welcome it waits. -/
theorem not_returns_welcomed (h : receivedBy c s.log = [welcomeLine])
    (r : Except RegisterError ClientState) : ¬ Returns u (receivedBy c s.log).flatten r := by
  rw [h, List.flatten_singleton]
  intro hr
  have hframe : Replies srvRegisterOk (ascii "REGISTER_OK\n") :=
    ⟨⟨by decide, by decide, by decide, .inr (by decide)⟩, by decide⟩
  have hclosed := (clientRegister_welcome clientInit u
    replies_welcomeLine.1 replies_welcomeLine.2 []).2
  have hok : (clientRegister clientInit u true
      (bytesIn (welcomeLine ++ (ascii "REGISTER_OK\n" ++ [])) ++ [])).result =
        registerReply clientInit (cstr (ascii "REGISTER_OK\n")) :=
    clientRegister_reply _ _ replies_welcomeLine.1 replies_welcomeLine.2 hframe.1 []
  obtain ⟨state, hstate⟩ := (registerReply_ok_iff clientInit hframe.1).2 hframe.2
  have hopen := hr (bytesIn (ascii "REGISTER_OK\n"))
  rw [bytesIn_append, List.append_nil, List.append_nil, hopen, hstate] at hok
  rw [hr [], hok] at hclosed
  cases hclosed

/-- The line behind the welcome. -/
theorem Shake.reply {p : Phase} (h : Shake u c s p) {input rest : List Recv} {line : Bytes}
    (hfirst : clientRecvLine maxMsgLen (bytesIn (receivedBy c s.log).flatten) =
      .line welcomeLine input) (hsecond : clientRecvLine maxMsgLen input = .line line rest) :
    ∃ post past aim, s.log = post ++ .delivered (.client c) aim c line :: past ∧
      lastLine c past = some (protoRegister u) := by
  have hspoiled : ¬ Spoiled (receivedBy c s.log) := by
    intro hspoiled
    obtain ⟨word, hword, hne, text, htext⟩ := hspoiled.begins
    rw [htext, ← List.append_nil (bytesIn _)] at hfirst
    obtain ⟨b, hb⟩ := clientRecvLine_begin hword hfirst
    have htype := protoParseType_begin hword b
    rw [← hb] at htype
    exact hne (htype.symm.trans (by decide))
  have hwelcome : ∀ stream, clientRecvLine maxMsgLen (bytesIn (welcomeLine ++ stream)) =
      .line welcomeLine (bytesIn stream) := by
    intro stream
    have hread := clientRecvLine_append (replies_welcomeLine.1.nextFrame stream) []
    rw [List.append_nil, List.append_nil] at hread
    exact hread
  have hanswered : ∀ word, AnsweredWith u c word s.log → ∃ post past aim,
      s.log = post ++ .delivered (.client c) aim c line :: past ∧
        lastLine c past = some (protoRegister u) := by
    intro word h
    obtain ⟨reply, rest', hheard, hframe, hlog⟩ := h.heard
    have hread := hwelcome (reply ++ rest'.flatten)
    rw [hheard, List.flatten_cons, List.flatten_cons, hread] at hfirst
    cases hfirst
    have hread' := clientRecvLine_append (hframe.1.nextFrame rest'.flatten) []
    rw [List.append_nil, List.append_nil, hsecond] at hread'
    cases hread'
    exact hlog
  have hwelcomed : receivedBy c s.log ≠ [welcomeLine] := by
    intro hheard
    have hread := hwelcome []
    rw [hheard, List.flatten_singleton, ← List.append_nil welcomeLine, hread] at hfirst
    cases hfirst
    cases hsecond
  have htold := h.told
  cases p with
  | fresh =>
    rcases htold with hnil | htold
    · rw [hnil] at hfirst
      cases hfirst
    · exact absurd htold hspoiled
  | welcomed =>
    rcases htold with htold | htold
    · exact absurd htold hwelcomed
    · exact absurd htold hspoiled
  | asked | added => exact absurd htold hwelcomed
  | refused | confirmed => exact hanswered _ htold

/-- Between the `REGISTER` and its answer the thread is at work. -/
theorem Shake.handling {p : Phase} (h : Shake u c s p) (hasked : p.Asked) (hp : ¬ p.Answered) :
    ∃ t code, s.threads c = some t ∧ t.pc = .handling code := by
  cases ht : s.threads c with
  | none => exact absurd (h.born ht) hasked.1
  | some t =>
    have hstands := h.stands t ht
    unfold Stands at hstands
    split at hstands
    · exact absurd hstands hasked.1
    · exact absurd hstands hasked.1
    · rename_i code hpc
      exact ⟨t, code, rfl, hpc⟩
    all_goals exact (hstands.elim hasked.2 hp).elim

/-- The client and the server agree on the registration of a connection in every run in which the
    connection does not fail and nobody else writes to it between its welcome and the answer to its
    `REGISTER`. -/
theorem agrees_of_undisturbed (hx : x.KeepsSlots) (hb : x.Broadcasts) (hu : ShortName u)
    {timeout : Int} (hs : (serverSystem x timeout).ReachUnder
      (fun s l => Connected u c s l ∧ Undisturbed c s l) s) : Agrees x timeout u c s := by
  obtain ⟨p, h⟩ := shake_reach hx hb hu hs
  refine ⟨fun r hr => ?_, fun input line rest => h.reply, fun hread => ?_⟩
  · have hnamed := h.named
    have htold := h.told
    cases p with
    | fresh | welcomed | asked =>
      rw [hnamed]
      have hnot := not_ok_of_told htold (by simp [Phase.Answered]) hr
      simpa using hnot
    | added => exact absurd hr (not_returns_welcomed htold r)
    | refused | confirmed =>
      obtain ⟨r', hr', hok⟩ := AnsweredWith.returns htold
      rw [returns_unique hr hr', hok, hnamed]
      decide
  · have hasked : p.Asked := by
      by_contra hasked
      rw [h.read, if_neg hasked] at hread
      exact hread rfl
    have hreturns : ∀ {s' p'}, Shake u c s' p' → p'.Answered →
        ∃ r, Returns u (receivedBy c s'.log).flatten r := by
      rintro s' p' h' (rfl | rfl)
      · obtain ⟨r, hr, -⟩ := AnsweredWith.returns h'.told
        exact ⟨r, hr⟩
      · obtain ⟨r, hr, -⟩ := AnsweredWith.returns h'.told
        exact ⟨r, hr⟩
    by_cases hanswered : p.Answered
    · obtain ⟨r, hr⟩ := hreturns h hanswered
      exact ⟨0, s, r, rfl, hr⟩
    · obtain ⟨t, code, ht, hpc⟩ := h.handling hasked hanswered
      obtain ⟨a, ha⟩ := tracks_reach hx hs.reach
      obtain ⟨n, s', p', hrun, h', hp'⟩ := h.finish hx timeout ha ht hpc
      obtain ⟨r, hr⟩ := hreturns h' hp'
      exact ⟨n, s', r, hrun, hr⟩

theorem agrees_cami :
    ∃ s, (serverSystem managerExterns 60).runIf
        (fun s l => decide (Connected (ascii "cami") 1 s l ∧ Undisturbed 1 s l)) (serverInit 60)
        (privateMessage "MSG|cami|hola\n") = some s ∧
      Agrees managerExterns 60 (ascii "cami") 1 s := by
  have hrun : ((serverSystem managerExterns 60).runIf
    (fun s l => decide (Connected (ascii "cami") 1 s l ∧ Undisturbed 1 s l)) (serverInit 60)
    (privateMessage "MSG|cami|hola\n")).isSome = true := by decide +kernel
  obtain ⟨s, hs⟩ := Option.isSome_iff_exists.1 hrun
  refine ⟨s, hs, agrees_of_undisturbed managerExterns_keepsSlots managerExterns_broadcasts
    ⟨by decide, by decide⟩ (System.ReachUnder.init.runIf ?_ hs)⟩
  exact fun _ _ _ h => of_decide_eq_true h

/-- `cami` registers, and a broadcast of `ana` reaches her before the answer does. -/
def interruptedRegistration : List Label :=
  connects 4 ++ turns 0 3 ++ writes 0 "REGISTER|ana\n" 9 ++ connects 5 ++ turns 1 3 ++
  writes 1 "REGISTER|cami\n" 5 ++ writes 0 "BROADCAST|hola\n" 5 ++ turns 1 2

/-- She takes the broadcast for the answer and gives up, and is registered. -/
theorem interruptedRegistration_disagrees :
    ¬ ∀ (x : Externs) (timeout : Int) (u : Bytes) (c : Conn) (s : Server), x.KeepsSlots →
      x.Broadcasts → ShortName u → (serverSystem x timeout).ReachUnder (Connected u c) s →
      Agrees x timeout u c s := by
  intro h
  obtain ⟨s, hs, hq⟩ := System.exists_reachUnder_of_runIf (S := serverSystem managerExterns 60)
    (Connected (ascii "cami") 1)
    (p := fun s l => decide (Connected (ascii "cami") 1 s l))
    (fun _ _ _ h => of_decide_eq_true h) interruptedRegistration
    (fun s => decide ((receivedBy 1 s.log).take 2 =
      [welcomeLine, ascii "BROADCAST_FROM|ana|\n"] ∧ .named 1 (ascii "cami") ∈ s.log))
    (by decide +kernel)
  obtain ⟨hheard, hnamed⟩ := of_decide_eq_true hq
  have hclaimed := h managerExterns 60 (ascii "cami") 1 s managerExterns_keepsSlots
    managerExterns_broadcasts ⟨by decide, by decide⟩ hs
  have hframe : IsFrame msgTerminatorChar (maxMsgLen - 1) (ascii "BROADCAST_FROM|ana|\n") :=
    ⟨by decide, by decide, by decide, .inr (by decide)⟩
  obtain ⟨rest, hrest⟩ : ∃ rest, receivedBy 1 s.log =
      [welcomeLine, ascii "BROADCAST_FROM|ana|\n"] ++ rest :=
    ⟨_, by rw [← hheard, List.take_append_drop]⟩
  have hreturns : Returns (ascii "cami") (receivedBy 1 s.log).flatten
      (registerReply clientInit (cstr (ascii "BROADCAST_FROM|ana|\n"))) := by
    intro more
    rw [hrest]
    exact clientRegister_reply _ _ replies_welcomeLine.1 replies_welcomeLine.2 hframe more
  have hok := (registerReply_ok_iff _ hframe).1 ((hclaimed.result _ hreturns).2 hnamed)
  exact absurd hok (by decide)

end Server

end ChatMultithread
