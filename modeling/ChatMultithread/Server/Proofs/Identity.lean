import ChatMultithread.Server.Proofs.Replies

/-!
# One name for a connection

`handle_register` looks at the name that a client asks for, and not at whether its session has one
already. A connection has one identity as long as it is given a name once, and before it was heard
of: then it is answered `REGISTER_OK` at most once, and its events carry one name.
`confirmMonitor` follows a thread from its `add_session` to the reply.
-/

namespace ChatMultithread

open Lib

/-- The names that were given to `c`, the last one in front. -/
def namesOf (c : Conn) (log : List Event) : List Bytes :=
  log.filterMap fun
    | .named d user => if d = c then some user else none
    | _ => none

/-- `c` was given a name and has not been answered `REGISTER_OK` since. -/
def unconfirmed (c : Conn) : List Event → Bool
  | [] => false
  | .named d _ :: past => if d = c then true else unconfirmed c past
  | .delivered src _ dst buf :: past =>
      if src = .client c ∧ dst = c ∧ registerOkName buf ≠ none then false else unconfirmed c past
  | .received _ _ :: past | .closed _ _ :: past => unconfirmed c past

namespace Server

/-- An event that the thread of `c` has sent. -/
def SentEvent (c : Conn) : Event → Prop
  | .delivered src _ _ buf => src = .client c ∧ IsEvent buf
  | .received _ _ | .named _ _ | .closed _ _ => False

/-- The connection has no name, and its thread has sent no event. -/
def Fresh (c : Conn) (log : List Event) : Prop :=
  nameOf c log = [] ∧ ∀ e ∈ log, ¬ SentEvent c e

/-- The operation names the session only if it is fresh. -/
def NamesFresh (s : Server) (c : Conn) : Op → Prop
  | .addSession _ _ => Fresh c s.log
  | _ => True

/-- Only fresh connections are given a name. -/
def NamesOnce (s : Server) : Label → Prop
  | .client c (.go _ _) => ∀ o ∈ s.nextOp c, NamesFresh s c o
  | _ => True

/-- Every connection has one identity. -/
structure OneIdentity (log : List Event) : Prop where
  /-- It is answered `REGISTER_OK` at most once. -/
  answered : ∀ c, (answers c log).length ≤ 1
  /-- The events that its thread has sent carry the same name. -/
  called : ∀ c, ∃ name, fieldSepChar ∉ name ∧ ∀ aim dst buf,
    .delivered (.client c) aim dst buf ∈ log → IsEvent buf → EventOf name buf

instance (c : Conn) (e : Event) : Decidable (SentEvent c e) :=
  match e with
  | .delivered _ _ _ _ => inferInstanceAs (Decidable (_ ∧ _))
  | .received _ _ | .named _ _ | .closed _ _ => isFalse nofun

instance (c : Conn) (log : List Event) : Decidable (Fresh c log) :=
  inferInstanceAs (Decidable (_ ∧ ∀ e ∈ log, _))

instance (s : Server) (c : Conn) (o : Op) : Decidable (NamesFresh s c o) :=
  match o with
  | .addSession _ _ => inferInstanceAs (Decidable (Fresh c s.log))
  | .sessionsFindBySockfd _ | .touchActivity _ | .readSockfd | .readAddr | .readUsername
  | .usernameExists _ | .findUserFd _ | .broadcastAll _ | .broadcastExcept _ _ | .getAllUsers _
  | .getUserInfo _ | .setUserStatus _ _ | .send _ _ | .undefinedBehaviour => isTrue trivial

instance (s : Server) (l : Label) : Decidable (NamesOnce s l) :=
  match l with
  | .client _ (.go _ _) => inferInstanceAs (Decidable (∀ o ∈ s.nextOp _, _))
  | .client _ (.line _) | .client _ .hangup | .acceptor _ | .monitor _ _ | .signal =>
      isTrue trivial

variable {x : Externs} {s s' : Server} {a : Lives} {c d : Conn} {t : Thread}
  {log new past : List Event}

/-! ## The log -/

theorem mem_namesOf {user : Bytes} : user ∈ namesOf c log ↔ .named c user ∈ log := by
  simp only [namesOf, List.mem_filterMap]
  constructor
  · rintro ⟨e, he, huser⟩
    cases e with
    | named d user' =>
      simp only [Option.ite_none_right_eq_some, Option.some.injEq] at huser
      obtain ⟨rfl, rfl⟩ := huser
      exact he
    | received _ _ | delivered _ _ _ _ | closed _ _ => cases huser
  · intro hmem
    exact ⟨_, hmem, if_pos rfl⟩

/-- The account of an entry: a name is given to a fresh connection only, and a `REGISTER_OK`
    confirms a name that has not been confirmed. -/
def Confirmed (past : List Event) : Event → Prop
  | .named c _ => Fresh c past
  | .delivered src _ dst buf =>
      src = .client dst → registerOkName buf = none ∨ unconfirmed dst past = true
  | .received _ _ | .closed _ _ => True

/-- What others have done confirms nothing. -/
theorem unconfirmed_append (hnew : ∀ e ∈ new, author e ≠ some c) :
    unconfirmed c (new ++ past) = unconfirmed c past := by
  induction new with
  | nil => rfl
  | cons e new ih =>
    have hrest := ih fun e' he' => hnew e' (List.mem_cons_of_mem _ he')
    have hauthor := hnew e List.mem_cons_self
    cases e with
    | named d user =>
      have hd : d ≠ c := by
        rintro rfl
        exact hauthor rfl
      rw [List.cons_append, unconfirmed, if_neg hd]
      exact hrest
    | delivered src aim dst buf =>
      rw [List.cons_append, unconfirmed, if_neg fun h => hauthor (author_delivered.2 h.1)]
      exact hrest
    | received _ _ | closed _ _ => exact hrest

theorem answers_delivered {aim : Option Conn} {buf : Bytes} :
    answers c (.delivered (.client c) aim c buf :: past) =
      (registerOkName buf).toList ++ answers c past := by
  simp only [answers, List.filterMap_cons, and_self, if_true]
  cases registerOkName buf <;> rfl

theorem answers_other {src : Source} {aim : Option Conn} {dst : Conn} {buf : Bytes}
    (h : ¬ (src = .client c ∧ dst = c)) :
    answers c (.delivered src aim dst buf :: past) = answers c past := by
  cases src with
  | monitor => rfl
  | client d =>
    have hnot : ¬ (d = c ∧ dst = c) := fun hc => h ⟨congrArg Source.client hc.1, hc.2⟩
    simp only [answers, List.filterMap_cons, if_neg hnot]

/-- Every `REGISTER_OK` has used up a name. -/
theorem length_answers_le (h : Justified Confirmed log) (c : Conn) :
    (answers c log).length + (unconfirmed c log).toNat ≤ (namesOf c log).length := by
  induction log with
  | nil => exact Nat.le_refl _
  | cons e past ih =>
    have hpast := ih h.2
    cases e with
    | named d user =>
      simp only [answers, namesOf, unconfirmed, List.filterMap_cons] at hpast ⊢
      split
      · rename_i hd
        have hbool := Bool.toNat_le (unconfirmed c past)
        simp only [Bool.toNat_true, List.length_cons]
        omega
      · exact hpast
    | delivered src aim dst buf =>
      have hentry : Confirmed past (.delivered src aim dst buf) := h.1
      by_cases hown : src = .client c ∧ dst = c
      · obtain ⟨rfl, rfl⟩ := hown
        rw [answers_delivered, unconfirmed]
        cases hok : registerOkName buf with
        | none =>
          rw [if_neg fun h => h.2.2 rfl]
          exact hpast
        | some user =>
          have howed : unconfirmed dst past = true := by
            refine (hentry rfl).resolve_left ?_
            rw [hok]
            exact Option.some_ne_none user
          rw [howed, Bool.toNat_true] at hpast
          rw [if_pos ⟨rfl, rfl, Option.some_ne_none user⟩]
          exact hpast
      · rw [answers_other hown, unconfirmed, if_neg fun h => hown ⟨h.1, h.2.1⟩]
        exact hpast
    | received _ _ | closed _ _ => exact hpast

/-- A fresh connection is named once. -/
theorem length_namesOf_le (h : Justified Confirmed log)
    (hnames : ∀ user, .named c user ∈ log → user ≠ []) : (namesOf c log).length ≤ 1 := by
  induction log with
  | nil => exact Nat.zero_le 1
  | cons e past ih =>
    have hpast : ∀ user, .named c user ∈ past → user ≠ [] := fun user hmem =>
      hnames user (List.mem_cons_of_mem _ hmem)
    cases e with
    | named d user =>
      by_cases hd : d = c
      · subst hd
        have hfresh : Fresh d past := h.1
        have hnone : namesOf d past = [] := by
          rw [List.eq_nil_iff_forall_not_mem]
          intro user huser
          exact nameOf_ne_of_named hpast (mem_namesOf.1 huser) hfresh.1
        have hcons : namesOf d (.named d user :: past) = user :: namesOf d past := by
          simp [namesOf]
        rw [hcons, hnone, List.length_singleton]
      · have hsame : namesOf c (.named d user :: past) = namesOf c past := by
          simp [namesOf, hd]
        rw [hsame]
        exact ih h.2 hpast
    | received _ _ | delivered _ _ _ _ | closed _ _ => exact ih h.2 hpast

/-- The name of a connection that has sent an event stays. -/
theorem nameOf_of_sentEvent {post : List Event} {e : Event} (he : SentEvent c e)
    (h : Justified Confirmed (post ++ e :: past)) :
    nameOf c (post ++ e :: past) = nameOf c past := by
  induction post with
  | nil =>
    cases e with
    | delivered src aim dst buf => rfl
    | received _ _ | named _ _ | closed _ _ => cases he
  | cons e' post ih =>
    have hrest := ih h.2
    cases e' with
    | named d user =>
      rw [List.cons_append, nameOf_named]
      split
      · rename_i hd
        subst hd
        have hfresh : Fresh d (post ++ e :: past) := h.1
        exact absurd he (hfresh.2 e (List.mem_append_right _ List.mem_cons_self))
      · exact hrest
    | received _ _ | delivered _ _ _ _ | closed _ _ => exact hrest

/-! ## The handlers -/

/-- The operations of a thread while it handles a line, by whether it has named its session and sent
    nothing since. -/
def confirmMonitor : Monitor Op Op.Resp Bool where
  allows named
    | .send _ buf => registerOkName buf = none ∨ named = true
    | .broadcastAll buf | .broadcastExcept buf _ => registerOkName buf = none
    | _ => True
  answers _ _ _ := True
  next named
    | .addSession _ _, _ => true
    | .send _ _, _ | .broadcastAll _, _ | .broadcastExcept _ _, _ => false
    | _, _ => named

/-- The rest of a line. -/
def Confirming {α : Type} (named : Bool) (code : ServerProg α) : Prop :=
  confirmMonitor.Safe (fun _ _ => True) named code

theorem registerOkName_of_type {buf : Bytes} (h : (protoParseType (cstr buf)).1 ≠ srvRegisterOk) :
    registerOkName buf = none := by
  rw [Option.eq_none_iff_forall_not_mem]
  intro user huser
  obtain ⟨-, rest, htype⟩ := registerOkName_eq_some huser
  rw [htype] at h
  exact h rfl

theorem registerOkName_event {buf : Bytes} (h : IsEvent buf) : registerOkName buf = none := by
  apply registerOkName_of_type
  have hdisjoint : ∀ word ∈ eventWords, word ≠ srvRegisterOk := by decide
  exact hdisjoint _ h

/-- A reply confirms a name only with the word `REGISTER_OK`. -/
theorem registerOkName_reply {word : Bytes} (hword : word ∈ replyWords) (hne : word ≠ srvRegisterOk)
    (args : List Bytes) : registerOkName (snprintf maxMsg (lineOf word args)) = none := by
  apply registerOkName_of_type
  rw [protoParseType_lineOf (isWord_of_replyWords word hword)]
  exact hne

/-- Only the reply of a `REGISTER` confirms a name. -/
theorem RepliesTo.registerOkName {line buf : Bytes} (h : RepliesTo line buf)
    (hcmd : lineCommand line ≠ .register) : registerOkName buf = none := by
  have hword : replyWordsOf .register = some (cmdRegister, srvRegisterOk) := rfl
  exact registerOkName_of_type (h.type_ne hword hcmd)

section Handlers

variable {named : Bool} {fd : Int} {line : Bytes}

theorem confirming_error (op code desc : Bytes) :
    Confirming named (sendIgnored fd (buildError maxMsg op code desc)) :=
  ⟨.inl (registerOkName_reply (by decide) (by decide) _), fun _ _ => trivial⟩

theorem handleRegister_confirming :
    Confirming named (handleRegister (lineMessage line)) := by
  rw [handleRegister_eq]
  refine ⟨trivial, fun fd _ => ?_⟩
  split
  · exact confirming_error _ _ _
  · refine ⟨trivial, fun exists_ _ => ?_⟩
    dsimp only
    split
    · exact confirming_error _ _ _
    · exact ⟨trivial, fun _ _ => ⟨trivial, fun addr _ => ⟨.inr rfl, fun _ _ => trivial⟩⟩⟩

theorem handlerOf_confirming (hcmd : lineCommand line ≠ .invalid) :
    Confirming named (handlerOf (lineMessage line)) := by
  by_cases hregister : lineCommand line = .register
  · have hhandler : handlerOf (lineMessage line) = handleRegister (lineMessage line) := by
      rw [handlerOf, lineMessage_type, hregister]
    rw [hhandler]
    exact handleRegister_confirming
  · -- no other handler says `REGISTER_OK`
    have hwording : Wording line (handlerOf (lineMessage line)) := handlerOf_wording hcmd
    refine hwording.transfer (fun _ _ => True) ?_ ?_ ?_ ?_ trivial
    · intro _ named o _ hallow
      cases o
      case send fd buf =>
        rcases hallow with hreply | ⟨name, hevent⟩
        · exact .inl (hreply.registerOkName hregister)
        · exact .inl (registerOkName_event hevent.type)
      case broadcastAll buf =>
        obtain ⟨name, hevent⟩ := hallow
        exact registerOkName_event hevent.type
      case broadcastExcept buf fd =>
        obtain ⟨name, hevent⟩ := hallow
        exact registerOkName_event hevent.type
      all_goals trivial
    · intro _ _ _ _ _ _
      trivial
    · intro _ _ _ _ _ _
      trivial
    · intro _ _ _ _ _
      trivial

theorem confirming_sendOrBreak {buf : Bytes} (h : registerOkName buf = none) :
    Confirming named (sendOrBreak fd buf) :=
  ⟨.inl h, fun _ _ => trivial⟩

theorem lineBody_confirming : Confirming named (lineBody fd line) := by
  apply safe_lineBody
  · exact fun _ => confirming_sendOrBreak (by decide +kernel)
  · exact fun _ => ⟨.inl (by decide +kernel), fun _ _ => trivial⟩
  · exact fun _ => trivial
  · exact fun _ _ _ => confirming_sendOrBreak (by decide +kernel)
  · exact fun _ _ hcmd => handlerOf_confirming hcmd

/-- A thread sends `REGISTER_OK` only behind its `add_session`. -/
theorem clientLine_confirming (hlen : line.length < maxMsg) :
    Confirming named (clientLine fd line) := by
  apply safe_clientLine hlen
  · exact trivial
  · exact fun _ => lineBody_confirming
  · exact fun _ _ => ⟨trivial, fun _ _ => lineBody_confirming⟩

end Handlers

/-! ## Every run -/

/-- The invariant: the threads are within their monitors, and those that have named their session
    have a name to confirm. -/
structure Confirms (s : Server) : Prop where
  handling : ∀ c t code, s.threads c = some t → t.pc = .handling code →
    ∃ named, Confirming named code ∧ (named = true → unconfirmed c s.log = true)
  confirmed : Justified Confirmed s.log

/-- What an operation of a thread writes. -/
theorem Confirms.perform (h : Confirms s) (hb : x.Broadcasts) {named : Bool}
    (hnamed : named = true → unconfirmed c s.log = true) {now : Int} {sent : Bool} {o : Op}
    {r : o.Resp} {target : Option (Int × Option Conn)} (hok : NamesFresh s c o)
    (hallow : confirmMonitor.allows named o)
    (hop : s.perform x c t now sent o = some (r, s', target)) :
    (confirmMonitor.next named o r = true → unconfirmed c s'.log = true) ∧
      Justified Confirmed s'.log := by
  have hconfirmed := h.confirmed
  have hbroadcast : ∀ {msg : Bytes} {sends : List (Int × Bytes)}, registerOkName msg = none →
      (∀ p ∈ sends, p.2 = msg) →
      Justified Confirmed (s.deliverAll (.client c) sends).log := by
    intro msg sends hmsg hsends
    rw [deliverAll_log]
    refine hconfirmed.append fun e he between hbetween => ?_
    obtain ⟨p, hp, dst, -, rfl⟩ := mem_deliveries.1 he
    intro hsrc
    rw [hsends p hp]
    exact .inl hmsg
  cases o
  case undefinedBehaviour => cases hop
  case addSession user fd =>
    cases hop
    refine ⟨fun _ => ?_, hok, hconfirmed⟩
    rw [unconfirmed, if_pos rfl]
  case broadcastAll msg =>
    cases hop
    exact ⟨nofun, hbroadcast hallow fun p hp => ((hb.mem_broadcastAll _ _ p).1 hp).1⟩
  case broadcastExcept msg fd =>
    cases hop
    exact ⟨nofun, hbroadcast hallow fun p hp => ((hb.mem_broadcastExcept _ _ _ p).1 hp).1⟩
  case send fd buf =>
    cases hop
    refine ⟨nofun, ?_⟩
    split
    · rw [deliver_log]
      split
      · exact hconfirmed
      · refine ⟨?_, hconfirmed⟩
        intro hsrc
        cases hsrc
        exact hallow.imp_right hnamed
    · exact hconfirmed
  all_goals
    cases hop
    exact ⟨hnamed, hconfirmed⟩

theorem Confirms.own (h : Confirms s) (hb : x.Broadcasts) {choice : ClientChoice}
    (hok : NamesOnce s (.client c choice)) (hs : Step x s (.client c choice) s') {t' : Thread}
    (ht' : s'.threads c = some t') {code : ServerProg LoopExit} (hcode : t'.pc = .handling code) :
    ∃ named, Confirming named code ∧ (named = true → unconfirmed c s'.log = true) := by
  cases handling_cases hs ht' hcode with
  | line ht hpc hlen hline =>
    rw [← hline]
    exact ⟨false, clientLine_confirming hlen, Bool.noConfusion⟩
  | perform ht hpc hop hnext =>
    obtain ⟨named, ⟨hallow, hsafe⟩, hnamed⟩ := h.handling c _ _ ht hpc
    have hfresh := hok _ (nextOp_eq_some.2 ⟨_, _, ht, hpc⟩)
    rw [← hnext]
    exact ⟨_, hsafe _ trivial, (h.perform hb hnamed hfresh hallow hop).1⟩

theorem Confirms.handling_step (h : Confirms s) (ha : Tracks s a) (hb : x.Broadcasts) {l : Label}
    (hok : NamesOnce s l) (hs : Step x s l s') {t' : Thread} (ht' : s'.threads c = some t')
    {code : ServerProg LoopExit} (hcode : t'.pc = .handling code) :
    ∃ named, Confirming named code ∧ (named = true → unconfirmed c s'.log = true) := by
  by_cases hown : ∃ choice, l = .client c choice
  · obtain ⟨choice, rfl⟩ := hown
    exact h.own hb hok hs ht' hcode
  · have hl : ∀ choice, l ≠ .client c choice := fun choice e => hown ⟨choice, e⟩
    obtain ⟨new, hnew, hauthor, -⟩ := log_of_step hs
    have hsame : unconfirmed c s'.log = unconfirmed c s.log := by
      rw [hnew]
      apply unconfirmed_append
      intro e he hc
      exact hown (hauthor e he c hc)
    rcases thread_of_other ha hs hl ht' with ht | ⟨-, hstart, -⟩
    · rw [hsame]
      exact h.handling c t' code ht hcode
    · rw [hstart] at hcode
      cases hcode

theorem Confirms.confirmed_step (h : Confirms s) (hb : x.Broadcasts) {l : Label}
    (hok : NamesOnce s l) (hs : Step x s l s') : Justified Confirmed s'.log := by
  have hconfirmed := h.confirmed
  cases hs with
  | @welcome c t now ht hpc =>
    rw [setThread_log, deliver_log]
    split
    · exact hconfirmed
    · exact ⟨fun _ => .inl (by decide +kernel), hconfirmed⟩
  | perform ht hpc hop =>
    obtain ⟨named, ⟨hallow, -⟩, hnamed⟩ := h.handling _ _ _ ht hpc
    have hfresh := hok _ (nextOp_eq_some.2 ⟨_, _, ht, hpc⟩)
    exact (h.perform hb hnamed hfresh hallow hop).2
  | @notify now n rest hpc hfd =>
    show Justified Confirmed (s.deliver .monitor n.aim n.sockfd n.text).log
    rw [deliver_log]
    split
    · exact hconfirmed
    · exact ⟨nofun, hconfirmed⟩
  | line | close | reject | undoClose => exact ⟨trivial, hconfirmed⟩
  | start | welcomeFailed | turn | hangup | continue_ | break_ | remove | removeInvalid
  | removeMissing | acceptMove | connection | addFull | add | findNone | find | create
  | createFailed | undoMissing | undo | undoInvalid | store | tick | monitorMove | signal =>
    exact hconfirmed

theorem confirms_init (timeout : Int) : Confirms (serverInit timeout) where
  handling c t code ht := by cases ht
  confirmed := trivial

theorem confirms_reach (hx : x.KeepsSlots) (hb : x.Broadcasts) {timeout : Int}
    (hs : (serverSystem x timeout).ReachUnder NamesOnce s) : Confirms s := by
  refine hs.invariant (P := Confirms) (confirms_init timeout) ?_
  intro s l s' hr h hok hl
  have hstep := step_cases hl
  obtain ⟨a, ha, -⟩ := speaks_reach hx hr.reach
  exact ⟨fun _ _ _ ht hcode => h.handling_step ha hb hok hstep ht hcode,
    h.confirmed_step hb hok hstep⟩

/-- In a run in which `add_session` names only connections that have no name and of which no event
    has been sent, every connection has one identity. -/
theorem oneIdentity_of_namesOnce (hx : x.KeepsSlots) (hr : x.Registry) (hb : x.Broadcasts)
    {timeout : Int} (hs : (serverSystem x timeout).ReachUnder NamesOnce s) :
    OneIdentity s.log := by
  obtain ⟨-, -, hspeaks⟩ := speaks_reach hx hs.reach
  have hspoken := hspeaks.spoken hb
  have hconfirmed := (confirms_reach hx hb hs).confirmed
  constructor
  · intro c
    have hnames := length_namesOf_le hconfirmed fun user hmem =>
      (isValidUsername_iff.1 (hspeaks.valid c user hmem)).1
    have hanswers := length_answers_le hconfirmed c
    omega
  · intro c
    refine ⟨nameOf c s.log, ?_, ?_⟩
    · rcases hspeaks.nameOf_valid c with hnone | hvalid
      · rw [hnone]
        exact List.not_mem_nil
      · exact not_mem_of_isValidUsername hvalid (by decide) (by decide)
    · intro aim dst buf hmem hevent
      obtain ⟨post, past, hlog, name, hname, hentry⟩ := hspoken.of_mem hmem
      rcases hentry with ⟨-, hreply⟩ | ⟨line, -, hline⟩
      · exact absurd hevent (reply_type hreply)
      · rw [hlog] at hspoken hconfirmed ⊢
        have hsent : SentEvent c (.delivered (.client c) aim dst buf) := ⟨rfl, hevent⟩
        have hkept := nameOf_of_sentEvent hsent hconfirmed
        obtain rfl := hname hr
        rw [hkept]
        exact hline.eventOf (nameOf_valid_of_spoken hspoken.of_append.2 c)

theorem oneIdentity_hola :
    ∃ s, (serverSystem managerExterns 60).runIf (fun s l => decide (NamesOnce s l)) (serverInit 60)
        (privateMessage "MSG|cami|hola\n") = some s ∧ OneIdentity s.log := by
  have hrun : ((serverSystem managerExterns 60).runIf (fun s l => decide (NamesOnce s l))
    (serverInit 60) (privateMessage "MSG|cami|hola\n")).isSome = true := by decide +kernel
  obtain ⟨s, hs⟩ := Option.isSome_iff_exists.1 hrun
  refine ⟨s, hs, oneIdentity_of_namesOnce managerExterns_keepsSlots managerExterns_registry
    managerExterns_broadcasts (System.ReachUnder.init.runIf ?_ hs)⟩
  exact fun _ _ _ h => of_decide_eq_true h

/-- A client registers twice. -/
def registersTwice : List Label :=
  connects 4 ++ turns 0 3 ++ writes 0 "REGISTER|ana\n" 9 ++ writes 0 "REGISTER|eva\n" 8

/-- It is answered `REGISTER_OK` both times. -/
theorem registersTwice_renamed :
    ¬ ∀ (x : Externs) (timeout : Int) (s : Server), x.KeepsSlots → x.Registry → x.Broadcasts →
      (serverSystem x timeout).Reach s → OneIdentity s.log := by
  intro h
  obtain ⟨s, hs, hp⟩ := System.exists_reach_of_run (S := serverSystem managerExterns 60)
    registersTwice (fun s => decide (answers 0 s.log = [ascii "eva", ascii "ana"]))
    (by decide +kernel)
  have hboth : answers 0 s.log = [ascii "eva", ascii "ana"] := of_decide_eq_true hp
  have hclaimed := (h managerExterns 60 s managerExterns_keepsSlots managerExterns_registry
    managerExterns_broadcasts hs).answered 0
  rw [hboth] at hclaimed
  exact absurd hclaimed (by decide)

end Server

end ChatMultithread
