import ChatMultithread.Server.Proofs.Quit
import ChatMultithread.Server.Proofs.Replies

/-!
# Answers and events in order

Lines are handled one after the other, so what a thread says can be laid beside what it has heard:
the events that it sends to one user are made of different lines, in the order of the lines, and so
are the replies to its own client. Where the sends to a client succeed no reply is left out, and a
client that writes several lines ahead can count on getting the answers back in turn.

`turnMonitor` follows a thread through one line and remembers whether it has made its event of it
and whether it has replied.
-/

namespace ChatMultithread

open Lib

namespace Server

/-- The greeting of the thread. -/
def greetingLine : Bytes := ascii "WELCOME|CHAT/1.0\n"

/-- The lines that the thread of `c` has received, in this order. -/
def heardBy (c : Conn) (log : List Event) : List Bytes :=
  (log.filterMap fun
    | .received d line => if d = c then some line else none
    | _ => none).reverse

/-- The events that it has sent to `d`, in this order. -/
def eventsFrom (c d : Conn) (log : List Event) : List Bytes :=
  (((saidBy c log).filter fun p => p.1 = d ∧ IsEvent p.2).map Prod.snd).reverse

/-- Everything else that it has said, and to whom. -/
def repliesFrom (c : Conn) (log : List Event) : List (Conn × Bytes) :=
  ((saidBy c log).filter fun p => ¬ IsEvent p.2).reverse

/-- What a thread has done about the line in its hands. -/
structure Turn where
  told : Bool
  replied : Bool
  deriving DecidableEq

/-- What it has done about it behind one more operation. -/
def Turn.next (g : Turn) (o : Op) : Turn :=
  ⟨g.told || (eventOf o).isSome, g.replied || (replyOf o).isSome⟩

/-- The operations of a thread with descriptor `fd` while it handles `line`: one event and one
    reply, which goes to its own client. -/
def turnMonitor (fd : Int) (line : Bytes) : Monitor Op Op.Resp Turn where
  allows g
    | .send fd' buf =>
        IsEvent buf ∧ g.told = false ∧ (∃ name, EventLine name line buf) ∨
          ¬ IsEvent buf ∧ g.replied = false ∧ fd' = fd ∧ RepliesTo line buf
    | .broadcastAll buf | .broadcastExcept buf _ =>
        g.told = false ∧ ∃ name, EventLine name line buf
    | _ => True
  answers _ o r := match o, r with
    | .readSockfd, r => r = fd
    | _, _ => True
  next g o _ := g.next o

variable {x : Externs} {s s' : Server} {a : Lives} {c d : Conn} {t : Thread} {fd : Int}
  {line : Bytes} {told replied : Bool}

/-! ## One line -/

section Turns

variable {α : Type} {post : Turn → α → Prop}

/-- The reply. -/
theorem turn_reply {buf : Bytes} {k : Bool → ServerProg α} (h : RepliesTo line buf)
    (hk : ∀ sent, (turnMonitor fd line).Safe post ⟨told, true⟩ (k sent)) :
    (turnMonitor fd line).Safe post ⟨told, false⟩ (.call (.send fd buf) k) := by
  have hnext : Turn.next ⟨told, false⟩ (.send fd buf) = ⟨told, true⟩ := by
    simp [Turn.next, eventOf, replyOf, h.not_isEvent]
  refine ⟨.inr ⟨h.not_isEvent, rfl, rfl, h⟩, fun sent _ => ?_⟩
  show (turnMonitor fd line).Safe post (Turn.next _ _) (k _)
  rw [hnext]
  exact hk sent

/-- The event. -/
theorem turn_event {o : Op} {k : o.Resp → ServerProg α} {buf : Bytes}
    (hallowed : (turnMonitor fd line).allows ⟨false, replied⟩ o) (hevent : eventOf o = some buf)
    (hreply : replyOf o = none) (hk : ∀ r, (turnMonitor fd line).Safe post ⟨true, replied⟩ (k r)) :
    (turnMonitor fd line).Safe post ⟨false, replied⟩ (.call o k) := by
  have hnext : Turn.next ⟨false, replied⟩ o = ⟨true, replied⟩ := by
    simp [Turn.next, hevent, hreply]
  refine ⟨hallowed, fun r _ => ?_⟩
  show (turnMonitor fd line).Safe post (Turn.next _ _) (k _)
  rw [hnext]
  exact hk r

/-- What is neither. -/
theorem turn_quiet {o : Op} {k : o.Resp → ServerProg α} {g : Turn}
    (hallowed : (turnMonitor fd line).allows g o) (hevent : eventOf o = none)
    (hreply : replyOf o = none)
    (hk : ∀ r, (turnMonitor fd line).answers g o r → (turnMonitor fd line).Safe post g (k r)) :
    (turnMonitor fd line).Safe post g (.call o k) := by
  have hnext : g.next o = g := by simp [Turn.next, hevent, hreply]
  refine ⟨hallowed, fun r hr => ?_⟩
  show (turnMonitor fd line).Safe post (g.next o) (k r)
  rw [hnext]
  exact hk r hr

/-- The descriptor in the session is the thread's own. -/
theorem turn_readSockfd {k : Int → ServerProg α} {g : Turn}
    (hk : (turnMonitor fd line).Safe post g (k fd)) :
    (turnMonitor fd line).Safe post g (.call .readSockfd k) := by
  refine turn_quiet trivial rfl rfl fun fd' hfd => ?_
  obtain rfl : fd' = fd := hfd
  exact hk

end Turns

/-- The line has been answered. -/
def HasReplied {α : Type} (g : Turn) (_ : α) : Prop := g.replied = true

/-- A reply ends every branch of a handler. -/
theorem turn_sendIgnored {buf : Bytes} (h : RepliesTo line buf) :
    (turnMonitor fd line).Safe HasReplied ⟨told, false⟩ (sendIgnored fd buf) := by
  rw [sendIgnored_eq]
  exact turn_reply h fun _ => rfl

theorem turn_ok {cmd word : Bytes} (h : replyWordsOf (lineCommand line) = some (cmd, word))
    (args : List Bytes) : (turnMonitor fd line).Safe HasReplied ⟨told, false⟩
      (sendIgnored fd (snprintf maxMsg (lineOf word args))) :=
  turn_sendIgnored (.ok h args)

theorem turn_error {cmd word : Bytes} (h : replyWordsOf (lineCommand line) = some (cmd, word))
    (code desc : Bytes) : (turnMonitor fd line).Safe HasReplied ⟨told, false⟩
      (sendIgnored fd (buildError maxMsg cmd code desc)) :=
  turn_sendIgnored (.error h code desc)

/-- The handlers. -/
theorem handlerOf_turn (hcmd : lineCommand line ≠ .invalid) :
    (turnMonitor fd line).Safe HasReplied ⟨false, false⟩ (handlerOf (lineMessage line)) := by
  have htype := lineMessage_type line
  unfold handlerOf
  split
  case h_1 h =>
    have hwords : replyWordsOf (lineCommand line) = some (cmdRegister, srvRegisterOk) := by
      rw [← htype, h]
      rfl
    rw [handleRegister_eq]
    apply turn_readSockfd
    split
    · exact turn_error hwords _ _
    · refine turn_quiet trivial rfl rfl fun exists_ _ => ?_
      split
      · exact turn_error hwords _ _
      · refine turn_quiet trivial rfl rfl fun _ _ => ?_
        refine turn_quiet trivial rfl rfl fun addr _ => ?_
        exact turn_ok hwords _
  case h_2 h =>
    have hwords : replyWordsOf (lineCommand line) = some (cmdList, srvListOk) := by
      rw [← htype, h]
      rfl
    rw [handleList_eq]
    refine turn_quiet trivial rfl rfl fun users _ => ?_
    apply turn_readSockfd
    exact turn_ok hwords _
  case h_3 h =>
    have hwords : replyWordsOf (lineCommand line) = some (cmdInfo, srvInfoOk) := by
      rw [← htype, h]
      rfl
    rw [handleInfo_eq]
    apply turn_readSockfd
    refine turn_quiet trivial rfl rfl fun exists_ _ => ?_
    split
    · exact turn_error hwords _ _
    · refine turn_quiet trivial rfl rfl fun info _ => ?_
      split
      · exact turn_error hwords _ _
      · exact turn_ok hwords _
  case h_4 h =>
    have hstatus : lineCommand line = .status := htype.symm.trans h
    have hwords : replyWordsOf (lineCommand line) = some (cmdStatus, srvStatusOk) := by
      rw [hstatus]
      rfl
    rw [handleStatus_eq]
    apply turn_readSockfd
    split
    · exact turn_error hwords _ _
    · rename_i hvalid
      have hvalid : isValidStatus (lineMessage line).arg1 = true := by simpa using hvalid
      refine turn_quiet trivial rfl rfl fun _ _ => ?_
      refine turn_quiet trivial rfl rfl fun _ _ => ?_
      refine turn_reply (.ok hwords _) fun _ => ?_
      -- the others are told behind the reply
      refine turn_quiet trivial rfl rfl fun name _ => ?_
      have hline : EventLine name line (buildStatusChanged maxMsg name (lineMessage line).arg1) :=
        .statusChanged hstatus hvalid
      exact turn_event ⟨rfl, name, hline⟩ rfl rfl fun _ => rfl
  case h_5 h =>
    have hmsg : lineCommand line = .msg := htype.symm.trans h
    have hwords : replyWordsOf (lineCommand line) = some (cmdMsg, srvMsgOk) := by
      rw [hmsg]
      rfl
    rw [handleMsg_eq]
    apply turn_readSockfd
    refine turn_quiet trivial rfl rfl fun dstFd _ => ?_
    split
    · exact turn_error hwords _ _
    · refine turn_quiet trivial rfl rfl fun name _ => ?_
      have hline : EventLine name line (buildDeliver maxMsg name (lineMessage line).arg2) :=
        .deliver hmsg
      have hevent : IsEvent (buildDeliver maxMsg name (lineMessage line).arg2) := hline.type
      refine turn_event (.inl ⟨hevent, rfl, name, hline⟩) (if_pos hevent) (if_pos hevent) fun _ => ?_
      exact turn_ok hwords _
  case h_6 h =>
    have hbroadcast : lineCommand line = .broadcast := htype.symm.trans h
    have hwords : replyWordsOf (lineCommand line) = some (cmdBroadcast, srvBroadcastOk) := by
      rw [hbroadcast]
      rfl
    rw [handleBroadcast_eq]
    apply turn_readSockfd
    refine turn_quiet trivial rfl rfl fun name _ => ?_
    have hline : EventLine name line (buildBroadcastFrom maxMsg name (lineMessage line).arg2) :=
      .broadcast hbroadcast
    refine turn_event ⟨rfl, name, hline⟩ rfl rfl fun _ => ?_
    exact turn_ok hwords _
  case h_7 h =>
    have hbye : snprintf 64 (lineOf srvBye []) = ascii "BYE\n" := by decide
    rw [handleQuit_eq, hbye]
    apply turn_readSockfd
    exact turn_sendIgnored (.bye (htype.symm.trans h))
  case h_8 h => exact absurd (htype.symm.trans h) hcmd

/-- The loop body. -/
theorem clientLine_turn (hlen : line.length < maxMsg) :
    (turnMonitor fd line).Safe HasReplied ⟨false, false⟩ (clientLine fd line) := by
  have hpending : protoPending = snprintf maxMsg (lineOf srvError
      [ascii "PROTO", ascii "NOT_IMPLEMENTED", ascii "Parser pending"]) := by decide
  have hbody : (turnMonitor fd line).Safe HasReplied ⟨false, false⟩ (lineBody fd line) := by
    apply safe_lineBody
    · intro hping
      exact turn_reply (.pong hping) fun _ => rfl
    · intro hquit
      have hcmd : lineCommand line = .quit := by
        rw [hquit]
        decide +kernel
      exact turn_reply (.bye hcmd) fun _ => rfl
    · exact fun _ => trivial
    · intro hping _ hcmd
      rw [hpending]
      exact turn_reply (.rejected hcmd hping _) fun _ => rfl
    · intro _ _ hcmd
      exact (handlerOf_turn hcmd).mono fun _ _ h => h
  apply safe_clientLine hlen
  · exact trivial
  · exact fun _ => hbody
  · intro slot _
    exact turn_quiet trivial rfl rfl fun _ _ => hbody

/-! ## The account of a connection -/

theorem saidBy_append (c : Conn) (new past : List Event) :
    saidBy c (new ++ past) = saidBy c new ++ saidBy c past :=
  List.filterMap_append

theorem heardBy_append (c : Conn) (new past : List Event) :
    heardBy c (new ++ past) = heardBy c past ++ heardBy c new := by
  simp [heardBy]

theorem eventsFrom_append (c d : Conn) (new past : List Event) :
    eventsFrom c d (new ++ past) = eventsFrom c d past ++ eventsFrom c d new := by
  simp [eventsFrom, saidBy_append]

theorem repliesFrom_append (c : Conn) (new past : List Event) :
    repliesFrom c (new ++ past) = repliesFrom c past ++ repliesFrom c new := by
  simp [repliesFrom, saidBy_append]

/-- The events that the thread of `c` has sent are made of the lines `made`, and its replies answer
    the lines `answered`; where it is `strict`, all of them. -/
structure Account (strict : Prop) (c : Conn) (made answered : List Bytes) (log : List Event) :
    Prop where
  events : ∀ d, List.SublistForall₂ (fun buf line => ∃ name, EventLine name line buf)
    (eventsFrom c d log) made
  replies : ∃ bufs, repliesFrom c log = (greetingLine :: bufs).map (Prod.mk c) ∧
    List.SublistForall₂ (fun buf line => RepliesTo line buf) bufs answered ∧
    (strict → bufs.length = answered.length)

/-- Nothing has been heard or said. -/
def Unheard (c : Conn) (log : List Event) : Prop := heardBy c log = [] ∧ saidBy c log = []

namespace Account

variable {strict : Prop} {made answered : List Bytes} {log new : List Event} {buf : Bytes}

/-- The greeting opens the account. -/
theorem greet (h : Unheard c log) (hsaid : saidBy c new = [(c, greetingLine)]) :
    Account strict c [] [] (new ++ log) := by
  have hgreeting : ¬ IsEvent greetingLine := by decide +kernel
  constructor
  · intro d
    have hnone : eventsFrom c d (new ++ log) = [] := by
      simp [eventsFrom, saidBy_append, h.2, hsaid, hgreeting]
    rw [hnone]
    exact .nil
  · refine ⟨[], ?_, .nil, fun _ => rfl⟩
    simp [repliesFrom, saidBy_append, h.2, hsaid, hgreeting]

theorem quiet (h : Account strict c made answered log) (hsaid : saidBy c new = []) :
    Account strict c made answered (new ++ log) := by
  constructor
  · intro d
    rw [eventsFrom_append, eventsFrom, eventsFrom, hsaid]
    simpa [eventsFrom] using h.events d
  · rw [repliesFrom_append, show repliesFrom c new = [] by simp [repliesFrom, hsaid],
      List.append_nil]
    exact h.replies

/-- The event of a line, to each user once at most. -/
theorem tell (h : Account strict c made answered log)
    (hevents : ∀ d, eventsFrom c d new = [] ∨ eventsFrom c d new = [buf])
    (hreplies : repliesFrom c new = []) (hline : ∃ name, EventLine name line buf) :
    Account strict c (made ++ [line]) answered (new ++ log) := by
  constructor
  · intro d
    rw [eventsFrom_append]
    rcases hevents d with hnone | hone
    · rw [hnone, List.append_nil]
      exact sublistForall₂_skip (h.events d) [line]
    · rw [hone]
      exact sublistForall₂_snoc (h.events d) hline
  · rw [repliesFrom_append, hreplies, List.append_nil]
    exact h.replies

/-- The reply to a line, unless the send has failed. -/
theorem reply (h : Account strict c made answered log)
    (hsaid : saidBy c new = [(c, buf)] ∨ ¬ strict ∧ saidBy c new = [])
    (hreply : RepliesTo line buf) :
    Account strict c made (answered ++ [line]) (new ++ log) := by
  obtain ⟨bufs, hbufs, hmatch, hall⟩ := h.replies
  rcases hsaid with hsaid | ⟨hloose, hsaid⟩
  · constructor
    · intro d
      rw [eventsFrom_append, show eventsFrom c d new = [] by
        simp [eventsFrom, hsaid, hreply.not_isEvent], List.append_nil]
      exact h.events d
    · refine ⟨bufs ++ [buf], ?_, sublistForall₂_snoc hmatch hreply, fun hstrict => ?_⟩
      · rw [repliesFrom_append, hbufs]
        simp [repliesFrom, hsaid, hreply.not_isEvent]
      · simp [hall hstrict]
  · obtain ⟨hevents, -⟩ := h.quiet hsaid
    refine ⟨hevents, bufs, ?_, sublistForall₂_skip hmatch [line], fun hstrict => absurd hstrict hloose⟩
    rw [repliesFrom_append, hbufs]
    simp [repliesFrom, hsaid]

/-- No event need be made of a line. -/
theorem skip (h : Account strict c made answered log) :
    Account strict c (made ++ [line]) answered log where
  events d := sublistForall₂_skip (h.events d) [line]
  replies := h.replies

end Account

/-! ## Broadcasts -/

/-- The descriptors in the table are distinct. -/
theorem sockfd_injOn (ha : Tracks s a) :
    Set.InjOn (fun i => (s.sessions i).sockfd) {i | Registered s.sessions i} := by
  intro i hi j hj hij
  obtain ⟨c, hc⟩ := ha.active_placed hi.1
  exact ((ha.onlyAt hc j).1 ⟨hj.1, hij.symm⟩).symm

/-- A connection has one descriptor. -/
theorem fds_inj (ha : Tracks s a) {fd fd' : Int} (h : s.fds fd = some d) (h' : s.fds fd' = some d) :
    fd = fd' := by
  rw [← ha.owner, ha.inv.owner_iff] at h h'
  exact Option.some.inj (h.symm.trans h')

/-- What one user receives of a broadcast of events. -/
theorem eventsFrom_deliveries {sends : List (Int × Bytes)} (hevent : ∀ p ∈ sends, IsEvent p.2) :
    eventsFrom c d (s.deliveries (.client c) sends) =
      receivedBy d (s.deliveries (.client c) sends) := by
  rw [receivedBy_deliveries]
  induction sends with
  | nil => rfl
  | cons p sends ih =>
    obtain ⟨hp, hrest⟩ := List.forall_mem_cons.1 hevent
    have hcons : s.deliveries (.client c) (p :: sends) = s.deliveries (.client c) sends ++
        s.deliveries (.client c) [p] := by
      simp only [deliveries, List.filterMap_cons, List.filterMap_nil]
      cases s.fds p.1 <;> simp
    rw [hcons, eventsFrom_append, ih hrest, List.filterMap_cons]
    cases hfd : s.fds p.1 with
    | none => simp [deliveries, hfd, eventsFrom, saidBy]
    | some dst =>
      by_cases hdst : dst = d <;> simp [deliveries, hfd, eventsFrom, saidBy, hdst, hp]

/-- A broadcast of one event to distinct descriptors reaches each user once at most. -/
theorem eventsFrom_broadcast (ha : Tracks s a) {sends : List (Int × Bytes)} {msg : Bytes}
    (hevent : IsEvent msg) (hnodup : (sends.map Prod.fst).Nodup) (hmsg : ∀ p ∈ sends, p.2 = msg) :
    eventsFrom c d (s.deliveries (.client c) sends) = [] ∨
      eventsFrom c d (s.deliveries (.client c) sends) = [msg] := by
  rw [eventsFrom_deliveries fun p hp => hmsg p hp ▸ hevent]
  exact receivedBy_broadcast (fun _ _ _ _ => fds_inj ha) hnodup hmsg

/-- It brings replies to nobody. -/
theorem repliesFrom_broadcast {sends : List (Int × Bytes)} {msg : Bytes} (hevent : IsEvent msg)
    (hmsg : ∀ p ∈ sends, p.2 = msg) : repliesFrom c (s.deliveries (.client c) sends) = [] := by
  rw [repliesFrom, List.reverse_eq_nil_iff, List.filter_eq_nil_iff]
  intro q hq hreply
  simp only [saidBy, List.mem_filterMap] at hq
  obtain ⟨e, he, hq⟩ := hq
  obtain ⟨p, hp, dst, -, rfl⟩ := mem_deliveries.1 he
  simp only [if_true, Option.some.injEq] at hq
  subst hq
  simp [hmsg p hp, hevent] at hreply

/-! ## One step -/

/-- The line in hand counts among those with which `b` has been done. -/
def upTo (b : Bool) (lines : List Bytes) (line : Bytes) : List Bytes :=
  if b then lines ++ [line] else lines

/-- What others do is not heard, nor said, by `c`. -/
theorem unheard_of_author {new : List Event} (h : ∀ e ∈ new, author e ≠ some c) : Unheard c new := by
  induction new with
  | nil => exact ⟨rfl, rfl⟩
  | cons e new ih =>
    obtain ⟨hlines, hsaid⟩ := ih fun e' he' => h e' (List.mem_cons_of_mem _ he')
    have he := h e List.mem_cons_self
    have hone : Unheard c [e] := by
      cases e with
      | received d line =>
        have hdc : d ≠ c := fun hdc => he (congrArg some hdc)
        exact ⟨by simp [heardBy, hdc], rfl⟩
      | delivered src aim dst buf =>
        cases src with
        | client d =>
          have hdc : d ≠ c := fun hdc => he (congrArg some hdc)
          exact ⟨rfl, by simp [saidBy, hdc]⟩
        | monitor => exact ⟨rfl, rfl⟩
      | named _ _ | closed _ _ => exact ⟨rfl, rfl⟩
    constructor
    · rw [← List.singleton_append, heardBy_append, hlines, hone.1]
      rfl
    · rw [← List.singleton_append, saidBy_append, hsaid, hone.2]
      rfl

/-- A thread hears a line by receiving it. -/
theorem heardBy_of_step {l : Label} (hs : Step x s l s') (hl : ∀ raw, l ≠ .client c (.line raw)) :
    heardBy c s'.log = heardBy c s.log := by
  obtain ⟨new, hlog, -, hnew⟩ := log_of_step hs
  have hnone : heardBy c new = [] := by
    rw [heardBy, List.reverse_eq_nil_iff, List.filterMap_eq_nil_iff]
    intro e he
    rcases hnew with hnew | ⟨d, raw, rfl, rfl⟩
    · cases e with
      | received d line => exact absurd rfl (hnew _ he d line)
      | named _ _ | delivered _ _ _ _ | closed _ _ => rfl
    · obtain rfl := List.mem_singleton.1 he
      have hdc : d ≠ c := by
        rintro rfl
        exact hl raw rfl
      exact if_neg hdc
  rw [hlog, heardBy_append, hnone, List.append_nil]

/-- An operation of the thread of `c` in the middle of a line. -/
theorem Account.perform {strict : Prop} (hb : x.Broadcasts) (honce : x.BroadcastsOnce)
    (ha : Tracks s a) (ht : s.threads c = some t) (hold : Holding t) (hstart : t.pc ≠ .start)
    {lines : List Bytes} {g : Turn} {now : Int} {sent : Bool} (hsent : strict → sent = true)
    (h : Account strict c (upTo g.told lines line) (upTo g.replied lines line) s.log) {o : Op}
    {r : o.Resp} {target : Option (Int × Option Conn)}
    (hallowed : (turnMonitor t.sockfd line).allows g o)
    (hop : s.perform x c t now sent o = some (r, s', target)) :
    Account strict c (upTo (g.next o).told lines line) (upTo (g.next o).replied lines line)
      s'.log := by
  obtain ⟨gtold, greplied⟩ := g
  have hbroadcast : ∀ (sends : List (Int × Bytes)) (msg : Bytes), (sends.map Prod.fst).Nodup →
      (∀ p ∈ sends, p.2 = msg) → gtold = false ∧ (∃ name, EventLine name line msg) →
      Account strict c (lines ++ [line]) (upTo greplied lines line)
        (s.deliverAll (.client c) sends).log := by
    rintro sends msg hnodup hmsg ⟨rfl, hline⟩
    have hevent : IsEvent msg := by
      obtain ⟨name, hname⟩ := hline
      exact hname.type
    rw [deliverAll_log]
    exact h.tell (fun d => eventsFrom_broadcast ha hevent hnodup hmsg)
      (repliesFrom_broadcast hevent hmsg) hline
  cases o
  case undefinedBehaviour => cases hop
  case addSession user fd' =>
    cases hop
    have hquiet := h.quiet (show saidBy c [.named c user] = [] from rfl)
    simpa [Turn.next, eventOf, replyOf] using hquiet
  case broadcastAll msg =>
    cases hop
    have htold := hbroadcast _ msg (honce.nodup_broadcastAll _ msg (sockfd_injOn ha))
      (fun p hp => ((hb.mem_broadcastAll _ _ p).1 hp).1) hallowed
    simpa [Turn.next, eventOf, replyOf, upTo] using htold
  case broadcastExcept msg fd' =>
    cases hop
    have htold := hbroadcast _ msg (honce.nodup_broadcastExcept _ msg fd' (sockfd_injOn ha))
      (fun p hp => ((hb.mem_broadcastExcept _ _ _ p).1 hp).1) hallowed
    simpa [Turn.next, eventOf, replyOf, upTo] using htold
  case send fd' buf =>
    cases hop
    have hsaid : ∃ new, (if sent = true then s.deliver (.client c) (aimOf c t fd') fd' buf
        else s).log = new ++ s.log ∧
        (saidBy c new = [] ∧ (sent = false ∨ s.fds fd' = none) ∨
          ∃ dst, s.fds fd' = some dst ∧ saidBy c new = [(dst, buf)]) := by
      split
      · rw [deliver_log]
        split
        · exact ⟨[], rfl, .inl ⟨rfl, .inr ‹_›⟩⟩
        · rename_i dst hdst
          exact ⟨[_], rfl, .inr ⟨dst, hdst, by simp [saidBy]⟩⟩
      · exact ⟨[], rfl, .inl ⟨rfl, .inl (by simpa using ‹¬ sent = true›)⟩⟩
    obtain ⟨new, hlog, hsaid⟩ := hsaid
    rw [hlog]
    rcases hallowed with ⟨hevent, htold, hline⟩ | ⟨hevent, hreplied, rfl, hreply⟩
    · obtain rfl : gtold = false := htold
      have hnew : ∀ d, eventsFrom c d new = [] ∨ eventsFrom c d new = [buf] := by
        intro d
        rcases hsaid with ⟨hsaid, -⟩ | ⟨dst, -, hsaid⟩
        · exact .inl (by simp [eventsFrom, hsaid])
        · by_cases hd : dst = d
          · exact .inr (by simp [eventsFrom, hsaid, hd, hevent])
          · exact .inl (by simp [eventsFrom, hsaid, hd])
      have hnone : repliesFrom c new = [] := by
        rcases hsaid with ⟨hsaid, -⟩ | ⟨dst, -, hsaid⟩ <;> simp [repliesFrom, hsaid, hevent]
      have htold := h.tell hnew hnone hline
      simpa [Turn.next, eventOf, replyOf, hevent, upTo] using htold
    · obtain rfl : greplied = false := hreplied
      have hown := ha.fds_placed (ha.placed_sockfd ht hold hstart)
      have hnew : saidBy c new = [(c, buf)] ∨ ¬ strict ∧ saidBy c new = [] := by
        rcases hsaid with ⟨hsaid, hfailed⟩ | ⟨dst, hdst, hsaid⟩
        · refine .inr ⟨fun hstrict => ?_, hsaid⟩
          rcases hfailed with hfailed | hfailed
          · rw [hsent hstrict] at hfailed
            cases hfailed
          · rw [hown] at hfailed
            cases hfailed
        · obtain rfl := Option.some.inj (hdst.symm.trans hown)
          exact .inl hsaid
      have hreplied := h.reply hnew hreply
      simpa [Turn.next, eventOf, replyOf, hevent, upTo] using hreplied
  all_goals
    cases hop
    simpa [Turn.next, eventOf, replyOf] using h

/-- The account of a connection whose thread has the descriptor `fd` and is at `pc`. -/
def Standing (strict : Prop) (c : Conn) (fd : Int) (log : List Event) : ThreadPc → Prop
  | .start | .welcome => Unheard c log
  | .loop | .receiving => Account strict c (heardBy c log) (heardBy c log) log
  | .handling code => ∃ lines line g, heardBy c log = lines ++ [line] ∧
      (turnMonitor fd line).Safe HasReplied g code ∧
      Account strict c (upTo g.told lines line) (upTo g.replied lines line) log
  | .removing | .closing _ | .done =>
      Unheard c log ∨ Account strict c (heardBy c log) (heardBy c log) log

/-- The invariant. -/
structure Converses (strict : Prop) (c : Conn) (s : Server) : Prop where
  unborn : s.threads c = none → Unheard c s.log
  thread : ∀ t, s.threads c = some t → Standing strict c t.sockfd s.log t.pc

variable {strict : Prop} {log new : List Event}

theorem Unheard.append (hnew : Unheard c new) (h : Unheard c log) : Unheard c (new ++ log) := by
  constructor
  · rw [heardBy_append, hnew.1, h.1]
    rfl
  · rw [saidBy_append, hnew.2, h.2]
    rfl

/-- What others do leaves the account as it is. -/
theorem Standing.frame {pc : ThreadPc} (hnew : Unheard c new) (h : Standing strict c fd log pc) :
    Standing strict c fd (new ++ log) pc := by
  have hlines : heardBy c (new ++ log) = heardBy c log := by
    rw [heardBy_append, hnew.1, List.append_nil]
  cases pc with
  | start | welcome => exact hnew.append h
  | loop | receiving =>
    show Account strict c (heardBy c (new ++ log)) (heardBy c (new ++ log)) _
    rw [hlines]
    exact Account.quiet h hnew.2
  | handling code =>
    obtain ⟨lines, line, g, hline, hsafe, haccount⟩ := h
    exact ⟨lines, line, g, hlines.trans hline, hsafe, haccount.quiet hnew.2⟩
  | removing | closing _ | done =>
    rcases h with h | h
    · exact .inl (hnew.append h)
    · refine .inr ?_
      rw [hlines]
      exact Account.quiet h hnew.2

/-- A line that has been answered is done with. -/
theorem Standing.done_with {exit : LoopExit}
    (h : Standing strict c fd log (.handling (.ret exit))) :
    Account strict c (heardBy c log) (heardBy c log) log := by
  obtain ⟨lines, line, ⟨gtold, greplied⟩, hline, hreplied, haccount⟩ := h
  obtain rfl : greplied = true := hreplied
  rw [hline]
  cases gtold with
  | false => exact haccount.skip
  | true => exact haccount

/-- Where the thread stands. -/
theorem Converses.standing {t : Thread} {pc : ThreadPc} (h : Converses strict c s)
    (ht : s.threads c = some t) (hpc : t.pc = pc) : Standing strict c t.sockfd s.log pc := by
  have hstanding := h.thread _ ht
  rw [hpc] at hstanding
  exact hstanding

/-- A line that arrives is the one to be answered now. -/
theorem Converses.receive {t : Thread} {raw : Bytes} (h : Converses strict c s)
    (ht : s.threads c = some t) (hpc : t.pc = .receiving)
    (hraw : IsFrame msgTerminatorChar (maxLineLen - 1) raw) :
    Standing strict c t.sockfd (.received c (cstr raw) :: s.log)
      (.handling (clientLine t.sockfd (cstr raw))) := by
  have hstanding := h.standing ht hpc
  have hnew : heardBy c [.received c (cstr raw)] = [cstr raw] := by simp [heardBy]
  have hsilent : saidBy c [.received c (cstr raw)] = [] := rfl
  refine ⟨heardBy c s.log, cstr raw, ⟨false, false⟩, ?_, clientLine_turn (length_cstr_frame hraw),
    Account.quiet hstanding hsilent⟩
  rw [← List.singleton_append, heardBy_append, hnew]

/-- An operation of the thread is one that its line allows, and its effect is accounted for. -/
theorem Converses.perform (hb : x.Broadcasts) (honce : x.BroadcastsOnce) (ha : Tracks s a)
    (h : Converses strict c s) {t : Thread} {now : Int} {sent : Bool} {o : Op}
    {k : o.Resp → ServerProg LoopExit} {r : o.Resp} {target : Option (Int × Option Conn)}
    (hsent : strict → sent = true) (ht : s.threads c = some t) (hpc : t.pc = .handling (.call o k))
    (hop : s.perform x c t now sent o = some (r, s', target)) :
    Standing strict c t.sockfd s'.log (.handling (k r)) := by
  have hlines := heardBy_of_step (c := c) (.perform ht hpc hop) (by simp)
  obtain ⟨lines, line, g, hline, ⟨hallowed, hsafe⟩, haccount⟩ := h.standing ht hpc
  have hr : (turnMonitor t.sockfd line).answers g o r := by
    cases o
    case readSockfd =>
      cases hop
      exact ha.sockfd_eq ht (by simp [Holding, hpc]) (by simp [hpc])
    all_goals trivial
  refine ⟨lines, line, g.next o, hlines.trans hline, hsafe r hr, ?_⟩
  exact haccount.perform hb honce ha ht (by simp [Holding, hpc]) (by simp [hpc]) hsent hallowed hop

/-- A thread that steps keeps the account of its connection. -/
theorem Converses.own_step (hb : x.Broadcasts) (honce : x.BroadcastsOnce) (ha : Tracks s a)
    (h : Converses strict c s) {choice : ClientChoice}
    (hok : strict → ∀ now, choice ≠ .go now false) (hs : Step x s (.client c choice) s')
    {t' : Thread} (ht' : s'.threads c = some t') : Standing strict c t'.sockfd s'.log t'.pc := by
  cases hs with
  | start ht hpc =>
    have hstanding := h.standing ht hpc
    rw [setThread_threads_self] at ht'
    cases ht'
    exact hstanding
  | welcome ht hpc =>
    have hstanding := h.standing ht hpc
    have hown := ha.fds_placed (ha.placed_sockfd ht (by simp [Holding, hpc]) (by simp [hpc]))
    rw [setThread_threads_self] at ht'
    cases ht'
    rw [setThread_log, deliver_log, hown]
    have hsaid : saidBy c [.delivered (.client c) (some c) c greetingLine] =
        [(c, greetingLine)] := by simp [saidBy]
    show Account strict c (heardBy c s.log) (heardBy c s.log) _
    rw [hstanding.1]
    exact Account.greet hstanding hsaid
  | welcomeFailed ht hpc =>
    have hstanding := h.standing ht hpc
    rw [setThread_threads_self] at ht'
    cases ht'
    exact .inl hstanding
  | turn ht hpc hto =>
    have hstanding := h.standing ht hpc
    rw [setThread_threads_self] at ht'
    cases ht'
    rcases hto with ⟨-, rfl⟩ | ⟨-, rfl⟩
    · exact hstanding
    · exact .inr hstanding
  | line ht hpc hraw =>
    rw [setThread_threads_self] at ht'
    cases ht'
    have hstanding := h.receive ht hpc hraw
    exact hstanding
  | hangup ht hpc =>
    have hstanding := h.standing ht hpc
    rw [setThread_threads_self] at ht'
    cases ht'
    exact .inr hstanding
  | @perform _ t now sent o k r s₁ target ht hpc hop =>
    have hsent : strict → sent = true := by
      intro hstrict
      cases sent with
      | true => rfl
      | false => exact absurd rfl (hok hstrict now)
    rw [setThread_threads_self] at ht'
    cases ht'
    have hstanding := h.perform hb honce ha hsent ht hpc hop
    exact hstanding
  | continue_ ht hpc =>
    have hstanding := h.standing ht hpc
    rw [setThread_threads_self] at ht'
    cases ht'
    exact hstanding.done_with
  | break_ ht hpc =>
    have hstanding := h.standing ht hpc
    rw [setThread_threads_self] at ht'
    cases ht'
    exact .inr hstanding.done_with
  | remove ht hpc | removeInvalid ht hpc | removeMissing ht hpc =>
    have hstanding := h.standing ht hpc
    rw [setThread_threads_self] at ht'
    cases ht'
    exact hstanding
  | @close _ t _ _ old ht hpc =>
    have hstanding := h.standing ht hpc
    rw [setThread_threads_self] at ht'
    cases ht'
    have hunheard : Unheard c [.closed c (s.fds old)] := ⟨rfl, rfl⟩
    have hdone : Standing strict c t.sockfd s.log .done := hstanding
    exact hdone.frame hunheard

theorem converses_step (hb : x.Broadcasts) (honce : x.BroadcastsOnce) (ha : Tracks s a)
    (h : Converses strict c s) {l : Label} (hok : strict → ∀ now, l ≠ .client c (.go now false))
    (hs : Step x s l s') : Converses strict c s' := by
  by_cases hown : ∃ choice, l = .client c choice
  · obtain ⟨choice, rfl⟩ := hown
    constructor
    · intro hnone
      obtain ⟨t, ht⟩ := thread_of_client_step hs
      obtain ⟨t', ht', -⟩ := own_step hs ht
      rw [hnone] at ht'
      cases ht'
    · intro t' ht'
      have hchoice : strict → ∀ now, choice ≠ .go now false := by
        rintro hstrict now rfl
        exact hok hstrict now rfl
      exact h.own_step hb honce ha hchoice hs ht'
  · have hl : ∀ choice, l ≠ .client c choice := fun choice e => hown ⟨choice, e⟩
    obtain ⟨new, hlog, hauthor, -⟩ := log_of_step hs
    have hnew : Unheard c new := by
      apply unheard_of_author
      intro e he hc
      obtain ⟨choice, e⟩ := hauthor e he c hc
      exact hl choice e
    constructor
    · intro hnone
      have hold : s.threads c = none := by
        cases ht : s.threads c with
        | none => rfl
        | some t =>
          rw [threads_of_step ha hs ht hl] at hnone
          cases hnone
      rw [hlog]
      exact hnew.append (h.unborn hold)
    · intro t ht
      rw [hlog]
      rcases thread_of_other ha hs hl ht with hold | ⟨hnone, hpc, -⟩
      · exact (h.thread t hold).frame hnew
      · rw [hpc]
        exact hnew.append (h.unborn hnone)

/-! ## Every run -/

theorem converses_reach (hx : x.KeepsSlots) (hb : x.Broadcasts) (honce : x.BroadcastsOnce)
    {timeout : Int}
    (hs : (serverSystem x timeout).ReachUnder
      (fun _ l => strict → ∀ now, l ≠ .client c (.go now false)) s) : Converses strict c s := by
  suffices h : ∃ a, Tracks s a ∧ Converses strict c s from h.choose_spec.2
  refine hs.invariant (P := fun s => ∃ a, Tracks s a ∧ Converses strict c s) ?_ ?_
  · refine ⟨_, tracks_init timeout, fun _ => ⟨rfl, rfl⟩, fun t ht => ?_⟩
    cases ht
  · rintro s l s' - ⟨a, ha, h⟩ hok hl
    obtain ⟨a', -, ha'⟩ := tracks_step hx ha (step_cases hl)
    exact ⟨a', ha', converses_step hb honce ha h hok (step_cases hl)⟩

/-- Wherever the thread stands, its account covers what it has heard, up to the line in its
    hands. -/
theorem Converses.account (h : Converses strict c s) :
    Unheard c s.log ∨ ∃ done pending answered, heardBy c s.log = done ++ pending ∧
      pending.length ≤ 1 ∧
      ((∀ t, s.threads c = some t → ∀ code, t.pc ≠ .handling code) → pending = []) ∧
      (answered = done ∨ answered = done ++ pending) ∧
      Account strict c (heardBy c s.log) answered s.log := by
  cases ht : s.threads c with
  | none => exact .inl (h.unborn ht)
  | some t =>
    have hstanding := h.thread t ht
    have hidle : Account strict c (heardBy c s.log) (heardBy c s.log) s.log →
        ∃ done pending answered, heardBy c s.log = done ++ pending ∧ pending.length ≤ 1 ∧
          ((∀ t', some t = some t' → ∀ code, t'.pc ≠ .handling code) → pending = []) ∧
          (answered = done ∨ answered = done ++ pending) ∧
          Account strict c (heardBy c s.log) answered s.log := by
      intro haccount
      exact ⟨heardBy c s.log, [], heardBy c s.log, by simp, by simp, fun _ => rfl, .inl rfl,
        haccount⟩
    cases hpc : t.pc with
    | start | welcome =>
      rw [hpc] at hstanding
      exact .inl hstanding
    | loop | receiving =>
      rw [hpc] at hstanding
      exact .inr (hidle hstanding)
    | removing | closing _ | done =>
      rw [hpc] at hstanding
      exact hstanding.imp_right hidle
    | handling code =>
      rw [hpc] at hstanding
      obtain ⟨lines, line, g, hline, -, haccount⟩ := hstanding
      refine .inr ⟨lines, [line], upTo g.replied lines line, hline, by simp, ?_, ?_, ?_⟩
      · intro hno
        exact absurd hpc (hno t rfl code)
      · cases g.replied with
        | false => exact .inl rfl
        | true => exact .inr rfl
      · rw [hline]
        cases htold : g.told with
        | false =>
          rw [htold] at haccount
          exact haccount.skip
        | true =>
          rw [htold] at haccount
          exact haccount

/-- Of two clients the first writes to the second, then tells everybody its status. -/
def conversation : List Label :=
  connects 4 ++ turns 0 3 ++ writes 0 "REGISTER|ana\n" 9 ++
    connects 5 ++ turns 1 3 ++ writes 1 "REGISTER|luis\n" 9 ++
    writes 0 "MSG|luis|hola\n" 9 ++ writes 0 "STATUS|OCUPADO\n" 10 ++ writes 0 "LIST\n" 2

/-- Everything that a thread says is in order. The events that it sends to one user are made of
    different lines of its client, in the order in which the lines were received, and so is the
    rest: behind the greeting it goes to the thread's own client, and each string is the reply to
    a line of its own. -/
theorem said_in_order (hx : x.KeepsSlots) (hb : x.Broadcasts) (honce : x.BroadcastsOnce)
    {timeout : Int} (hs : (serverSystem x timeout).Reach s) (c : Conn) :
    (∀ d, List.SublistForall₂ (fun buf line => ∃ name, EventLine name line buf)
      (eventsFrom c d s.log) (heardBy c s.log)) ∧
    (repliesFrom c s.log = [] ∨ ∃ bufs,
      repliesFrom c s.log = (greetingLine :: bufs).map (Prod.mk c) ∧
      List.SublistForall₂ (fun buf line => RepliesTo line buf) bufs (heardBy c s.log)) := by
  have hs' : (serverSystem x timeout).ReachUnder
      (fun _ l => False → ∀ now, l ≠ .client c (.go now false)) s := hs.mono fun _ _ _ => False.elim
  rcases (converses_reach hx hb honce hs').account with
    ⟨-, hsaid⟩ | ⟨done, pending, answered, hlines, -, -, hanswered, haccount⟩
  · constructor
    · intro d
      rw [eventsFrom, hsaid]
      exact .nil
    · exact .inl (by simp [repliesFrom, hsaid])
  · refine ⟨haccount.events, .inr ?_⟩
    obtain ⟨bufs, hbufs, hmatch, -⟩ := haccount.replies
    refine ⟨bufs, hbufs, ?_⟩
    rw [hlines]
    rcases hanswered with rfl | rfl
    · exact sublistForall₂_skip hmatch pending
    · exact hmatch

theorem said_in_order_conversation :
    ∃ s, (serverSystem managerExterns 60).Reach s ∧
      eventsFrom 0 1 s.log = [ascii "DELIVER|ana|hola\n", ascii "STATUS_CHANGED|ana|OCUPADO\n"] ∧
      List.SublistForall₂ (fun buf line => ∃ name, EventLine name line buf)
        (eventsFrom 0 1 s.log) (heardBy 0 s.log) := by
  obtain ⟨s, hs, hp⟩ := System.exists_reach_of_run (S := serverSystem managerExterns 60)
    conversation (fun s => decide (eventsFrom 0 1 s.log =
      [ascii "DELIVER|ana|hola\n", ascii "STATUS_CHANGED|ana|OCUPADO\n"])) (by decide +kernel)
  have hsaid := said_in_order managerExterns_keepsSlots managerExterns_broadcasts
    managerExterns_broadcastsOnce hs 0
  exact ⟨s, hs, of_decide_eq_true hp, hsaid.1 1⟩

/-- A client whose sends succeed gets every line answered, in the order in which it wrote them:
    behind the greeting there is one reply to each line that the thread has finished with, and at
    most the line in its hands is still to be answered. -/
theorem answered_in_order (hx : x.KeepsSlots) (hb : x.Broadcasts) (honce : x.BroadcastsOnce)
    {timeout : Int} {c : Conn}
    (hs : (serverSystem x timeout).ReachUnder (fun _ l => ∀ now, l ≠ .client c (.go now false)) s) :
    repliesFrom c s.log = [] ∧ heardBy c s.log = [] ∨ ∃ bufs answered pending,
      repliesFrom c s.log = (greetingLine :: bufs).map (Prod.mk c) ∧
      heardBy c s.log = answered ++ pending ∧
      List.Forall₂ (fun buf line => RepliesTo line buf) bufs answered ∧
      pending.length ≤ 1 ∧
      ((∀ t, s.threads c = some t → ∀ code, t.pc ≠ .handling code) → pending = []) := by
  have hs' : (serverSystem x timeout).ReachUnder
      (fun _ l => True → ∀ now, l ≠ .client c (.go now false)) s := hs.mono fun _ _ h _ => h
  rcases (converses_reach hx hb honce hs').account with
    ⟨hlines, hsaid⟩ | ⟨done, pending, answered, hlines, hpending, hidle, hanswered, haccount⟩
  · exact .inl ⟨by simp [repliesFrom, hsaid], hlines⟩
  · obtain ⟨bufs, hbufs, hmatch, hall⟩ := haccount.replies
    have hreplies := forall₂_of_sublistForall₂ hmatch (hall trivial)
    rcases hanswered with rfl | rfl
    · exact .inr ⟨bufs, answered, pending, hbufs, hlines, hreplies, hpending, hidle⟩
    · refine .inr ⟨bufs, done ++ pending, [], hbufs, by simpa using hlines, hreplies, by simp, ?_⟩
      exact fun _ => rfl

theorem answered_in_order_conversation :
    ∃ s, (serverSystem managerExterns 60).run (serverInit 60) conversation = some s ∧
      (repliesFrom 0 s.log = [] ∧ heardBy 0 s.log = [] ∨ ∃ bufs answered pending,
        repliesFrom 0 s.log = (greetingLine :: bufs).map (Prod.mk 0) ∧
        heardBy 0 s.log = answered ++ pending ∧
        List.Forall₂ (fun buf line => RepliesTo line buf) bufs answered ∧
        pending.length ≤ 1 ∧
        ((∀ t, s.threads 0 = some t → ∀ code, t.pc ≠ .handling code) → pending = [])) := by
  have hrun : ((serverSystem managerExterns 60).run (serverInit 60) conversation).isSome = true := by
    decide +kernel
  obtain ⟨s, hs⟩ := Option.isSome_iff_exists.1 hrun
  refine ⟨s, hs, answered_in_order managerExterns_keepsSlots managerExterns_broadcasts
    managerExterns_broadcastsOnce (System.ReachUnder.init.run ?_ hs)⟩
  rintro l hl - now rfl
  revert hl
  simp [conversation, connects, turns, writes]

end Server

end ChatMultithread
