import ChatMultithread.Server.Proofs.Events

/-!
# Leaving

The thread knows one spelling of `QUIT` itself, and for that one it says goodbye, leaves its loop,
removes the session and closes the socket. For every other spelling that the parser accepts the
handler says goodbye and asks to close the session, and the loop does not hear it. Where only the
first spelling is received, a session ends with its `QUIT`.
-/

namespace ChatMultithread

open Lib Lib.HandleTable

namespace Server

/-- `QUIT` as the thread itself spells it. -/
def quitLine : Bytes := ascii "QUIT\n"

/-- The goodbye of the thread. -/
def byeLine : Bytes := ascii "BYE\n"

instance (line : Bytes) : Decidable (QuitLine line) :=
  inferInstanceAs (Decidable (_ ∨ _))

/-- Only lines that the thread itself takes for `QUIT` are received as such. -/
def PlainQuits : Label → Prop
  | .client _ (.line raw) => QuitLine (cstr raw) → cstr raw = quitLine
  | _ => True

instance (l : Label) : Decidable (PlainQuits l) :=
  match l with
  | .client _ (.line _) => inferInstanceAs (Decidable (_ → _))
  | .client _ (.go _ _) | .client _ .hangup | .acceptor _ | .monitor _ _ | .signal =>
      isTrue trivial

/-- What the thread of `c` has written. -/
def saidBy (c : Conn) (log : List Event) : List (Conn × Bytes) :=
  log.filterMap fun
    | .delivered (.client d) _ dst buf => if d = c then some (dst, buf) else none
    | _ => none

/-- What the thread of `c` has written since it received its last line. -/
def saidSince (c : Conn) : List Event → List (Conn × Bytes)
  | [] => []
  | .received d _ :: past => if d = c then [] else saidSince c past
  | .delivered (.client d) _ dst buf :: past =>
      if d = c then (dst, buf) :: saidSince c past else saidSince c past
  | _ :: past => saidSince c past

/-- The thread is `n` steps from its end, with `QUIT` received and nothing left to do but to say
    goodbye and to go. -/
inductive Leaving (t : Thread) : Nat → Prop
  | find (hpc : t.pc = .handling (clientLine t.sockfd quitLine)) : Leaving t 6
  | touch (i : Slot) (hpc : t.pc = .handling (.call (.touchActivity i) fun _ =>
      .call (.send t.sockfd byeLine) fun _ => .ret .break_)) : Leaving t 5
  | bye (hpc : t.pc = .handling (.call (.send t.sockfd byeLine) fun _ => .ret .break_)) :
      Leaving t 4
  | break_ (hpc : t.pc = .handling (.ret .break_)) : Leaving t 3
  | removing (hpc : t.pc = .removing) : Leaving t 2
  | closing (old : Int) (hpc : t.pc = .closing old) : Leaving t 1
  | done (hpc : t.pc = .done) : Leaving t 0

/-- A connection ends with its `QUIT`. -/
structure QuitCloses (x : Externs) (s : Server) : Prop where
  /-- Behind a `QUIT` no line is received, nothing but one goodbye is written, and the thread is on
      its way to the end, with its session removed before the last step. -/
  closes : ∀ post past c line, s.log = post ++ .received c line :: past → QuitLine line →
    (∀ line', .received c line' ∉ post) ∧ (saidBy c post = [] ∨ saidBy c post = [(c, byeLine)]) ∧
      ∃ t n, s.threads c = some t ∧ Leaving t n ∧ (4 ≤ n → saidBy c post = []) ∧
        (n ≤ 1 → ¬ Live s c)
  /-- The thread can take every step on its way, and one of them says goodbye. -/
  proceeds : ∀ c t n, s.threads c = some t → Leaving t (n + 1) → ∀ now sent,
    ∃ s' t', s.step x (.client c (.go now sent)) = some s' ∧ s'.threads c = some t' ∧
      Leaving t' n ∧
      (n = 3 → sent = true → ∃ aim, s'.log = .delivered (.client c) aim c byeLine :: s.log)
  /-- Behind a goodbye no line is received and nothing is written. -/
  goodbye : ∀ post past c aim d, s.log = post ++ .delivered (.client c) aim d byeLine :: past →
    (∀ line, .received c line ∉ post) ∧ saidBy c post = []

variable {x : Externs} {s s' : Server} {a : Lives} {c d : Conn} {t : Thread} {n : Nat}
  {log past new : List Event}

/-! ## What is said since the last line -/

/-- Without a line received in between, what is written adds up. -/
theorem saidSince_append (h : ∀ line, .received c line ∉ new) :
    saidSince c (new ++ past) = saidBy c new ++ saidSince c past := by
  induction new with
  | nil => rfl
  | cons e new ih =>
    have hrest := ih fun line hmem => h line (List.mem_cons_of_mem _ hmem)
    cases e with
    | received d line =>
      have hdc : d ≠ c := by
        rintro rfl
        exact h line List.mem_cons_self
      simpa [saidSince, saidBy, hdc] using hrest
    | delivered src aim dst buf =>
      cases src with
      | client d =>
        by_cases hdc : d = c
        · simpa [saidSince, saidBy, hdc] using hrest
        · simpa [saidSince, saidBy, hdc] using hrest
      | monitor => simpa [saidSince, saidBy] using hrest
    | named _ _ | closed _ _ => simpa [saidSince, saidBy] using hrest

/-- What others do does not count. -/
theorem saidSince_of_author (h : ∀ e ∈ new, author e ≠ some c) :
    saidSince c (new ++ past) = saidSince c past := by
  induction new with
  | nil => rfl
  | cons e new ih =>
    have he := h e List.mem_cons_self
    have hrest := ih fun e' he' => h e' (List.mem_cons_of_mem _ he')
    cases e with
    | received d line =>
      have hdc : d ≠ c := fun hdc => he (congrArg some hdc)
      simpa [saidSince, hdc] using hrest
    | delivered src aim dst buf =>
      cases src with
      | client d =>
        have hdc : d ≠ c := fun hdc => he (congrArg some hdc)
        simpa [saidSince, hdc] using hrest
      | monitor => simpa [saidSince] using hrest
    | named _ _ | closed _ _ => simpa [saidSince] using hrest

/-! ## The way out -/

/-- The loop body for the thread's own spelling. -/
theorem clientLine_quitLine (fd : Int) : clientLine fd quitLine =
    .call (.sessionsFindBySockfd fd) fun session =>
      match session with
      | none => .call (.send fd byeLine) fun _ => .ret .break_
      | some slot => .call (.touchActivity slot) fun _ =>
          .call (.send fd byeLine) fun _ => .ret .break_ := by
  have hbody : lineBody fd quitLine = .call (.send fd byeLine) fun _ => .ret .break_ := by
    rw [lineBody, if_neg (by decide), if_pos (show quitLine = ascii "QUIT\n" from rfl)]
    rfl
  rw [clientLine_eq fd (by decide), updateSessionActivity_eq, Prog.call_bind, hbody]
  congr 1
  funext session
  cases session <;> rfl

/-- The operations of a leaving thread. -/
theorem leaving_perform (ha : Tracks s a) (ht : s.threads c = some t) (h : Leaving t n)
    {now : Int} {sent : Bool} {o : Op} {k : o.Resp → ServerProg LoopExit} {r : o.Resp}
    {target : Option (Int × Option Conn)} (hpc : t.pc = .handling (.call o k))
    (hop : s.perform x c t now sent o = some (r, s', target)) :
    ∃ m, n = m + 1 ∧ Leaving { t with pc := .handling (k r), target := target } m ∧
      ∃ new, s'.log = new ++ s.log ∧ (∀ line, .received c line ∉ new) ∧
        (saidBy c new = [] ∨ m = 3 ∧ saidBy c new = [(c, byeLine)]) := by
  have hplaced := ha.placed_sockfd ht (by simp [Holding, hpc]) (by simp [hpc])
  cases h with
  | find hpc' =>
    rw [hpc, clientLine_quitLine] at hpc'
    cases hpc'
    cases hop
    refine ⟨5, rfl, .touch t.slot ?_, [], rfl, by simp, .inl rfl⟩
    simp only [ha.find_placed hplaced]
  | touch i hpc' =>
    rw [hpc] at hpc'
    cases hpc'
    cases hop
    exact ⟨4, rfl, .bye rfl, [], rfl, by simp, .inl rfl⟩
  | bye hpc' =>
    rw [hpc] at hpc'
    cases hpc'
    cases hop
    refine ⟨3, rfl, .break_ rfl, ?_⟩
    split
    · rw [deliver_log, ha.fds_placed hplaced]
      exact ⟨[_], rfl, by simp, .inr ⟨rfl, by simp [saidBy]⟩⟩
    · exact ⟨[], rfl, by simp, .inl rfl⟩
  | break_ hpc' | removing hpc' | closing old hpc' | done hpc' =>
    rw [hpc] at hpc'
    cases hpc'

/-- A step of a leaving thread takes it one step further. -/
theorem leaving_step (ha : Tracks s a) (ht : s.threads c = some t) (h : Leaving t n)
    {choice : ClientChoice} (hs : Step x s (.client c choice) s') :
    ∃ t' m, n = m + 1 ∧ s'.threads c = some t' ∧ Leaving t' m ∧
      ∃ new, s'.log = new ++ s.log ∧ (∀ line, .received c line ∉ new) ∧
        (saidBy c new = [] ∨ m = 3 ∧ saidBy c new = [(c, byeLine)]) := by
  cases hs with
  | perform ht' hpc hop =>
    obtain rfl := Option.some.inj (ht.symm.trans ht')
    obtain ⟨m, hm, hleaving, hlog⟩ := leaving_perform ha ht h hpc hop
    exact ⟨_, m, hm, setThread_threads_self _ _ _, hleaving, hlog⟩
  | break_ ht' hpc =>
    obtain rfl := Option.some.inj (ht.symm.trans ht')
    cases h with
    | break_ => exact ⟨_, 2, rfl, setThread_threads_self _ _ _, .removing rfl, [], rfl, by simp,
        .inl rfl⟩
    | find hpc' =>
      rw [hpc, clientLine_quitLine] at hpc'
      cases hpc'
    | touch i hpc' | bye hpc' | removing hpc' | closing old hpc' | done hpc' =>
      rw [hpc] at hpc'
      cases hpc'
  | remove ht' hpc =>
    obtain rfl := Option.some.inj (ht.symm.trans ht')
    cases h with
    | removing => exact ⟨_, 1, rfl, setThread_threads_self _ _ _, .closing _ rfl, [], rfl, by simp,
        .inl rfl⟩
    | find hpc' | touch i hpc' | bye hpc' | break_ hpc' | closing old hpc' | done hpc' =>
      rw [hpc] at hpc'
      cases hpc'
  | close ht' hpc =>
    obtain rfl := Option.some.inj (ht.symm.trans ht')
    cases h with
    | closing => exact ⟨_, 0, rfl, setThread_threads_self _ _ _, .done rfl, [_], rfl, by simp,
        .inl rfl⟩
    | find hpc' | touch i hpc' | bye hpc' | break_ hpc' | removing hpc' | done hpc' =>
      rw [hpc] at hpc'
      cases hpc'
  | removeInvalid ht' hpc hfind hfd =>
    obtain rfl := Option.some.inj (ht.symm.trans ht')
    have hst := ha.placed_sockfd ht (by simp [Holding, hpc]) (by simp [hpc])
    obtain rfl := Option.some.inj ((ha.find_placed hst).symm.trans hfind)
    rw [(ha.sockfd_placed hst).2] at hfd
    exact absurd (ha.nonneg _ _ (ha.fds_placed hst)) (Int.not_le.2 hfd)
  | removeMissing ht' hpc hfind =>
    obtain rfl := Option.some.inj (ht.symm.trans ht')
    have hst := ha.placed_sockfd ht (by simp [Holding, hpc]) (by simp [hpc])
    rw [ha.find_placed hst] at hfind
    cases hfind
  | continue_ ht' hpc =>
    obtain rfl := Option.some.inj (ht.symm.trans ht')
    cases h with
    | find hpc' =>
      rw [hpc, clientLine_quitLine] at hpc'
      cases hpc'
    | touch i hpc' | bye hpc' | break_ hpc' | removing hpc' | closing old hpc' | done hpc' =>
      rw [hpc] at hpc'
      cases hpc'
  | start ht' hpc | welcome ht' hpc | welcomeFailed ht' hpc | turn ht' hpc | line ht' hpc
  | hangup ht' hpc =>
    obtain rfl := Option.some.inj (ht.symm.trans ht')
    cases h with
    | find hpc' | touch i hpc' | bye hpc' | break_ hpc' | removing hpc' | closing old hpc'
    | done hpc' =>
      rw [hpc] at hpc'
      cases hpc'

/-- A leaving thread can always take its next step. -/
theorem leaving_enabled (ht : s.threads c = some t) (h : Leaving t (n + 1)) (now : Int)
    (sent : Bool) : ∃ s', s.step x (.client c (.go now sent)) = some s' := by
  simp only [Server.step, ht]
  cases h with
  | find hpc =>
    rw [hpc, clientLine_quitLine]
    exact ⟨_, rfl⟩
  | touch i hpc | bye hpc | break_ hpc | closing old hpc =>
    rw [hpc]
    exact ⟨_, rfl⟩
  | removing hpc =>
    rw [hpc, clientStep]
    split
    · exact ⟨_, rfl⟩
    · split <;> exact ⟨_, rfl⟩

/-- At the goodbye, a step in which the send is whole writes it. -/
theorem leaving_bye (ha : Tracks s a) (ht : s.threads c = some t) (h : Leaving t 4) {now : Int}
    (hs : s.step x (.client c (.go now true)) = some s') :
    ∃ aim, s'.log = .delivered (.client c) aim c byeLine :: s.log := by
  cases h with
  | bye hpc =>
    have hplaced := ha.placed_sockfd ht (by simp [Holding, hpc]) (by simp [hpc])
    simp only [Server.step, ht, hpc, clientStep, perform, if_true] at hs
    cases hs
    rw [setThread_log, deliver_log, ha.fds_placed hplaced]
    exact ⟨_, rfl⟩

/-- A thread with one step left, or none, has let go of its slot. -/
theorem not_holding_of_leaving (h : Leaving t n) (hn : n ≤ 1) : ¬ Holding t := by
  cases h with
  | find | touch | bye | break_ | removing => omega
  | closing old hpc => simp [Holding, hpc]
  | done hpc => simp [Holding, hpc]

/-! ## Every run -/

/-- No line is received behind a `QUIT`. -/
def Last (past : List Event) (e : Event) : Prop :=
  ∀ c line, e = .received c line → ∀ line', lastLine c past = some line' → ¬ QuitLine line'

/-- The invariant. -/
structure Quits (s : Server) : Prop where
  leaving : ∀ c line, lastLine c s.log = some line → QuitLine line →
    ∃ t n, s.threads c = some t ∧ Leaving t n ∧ (4 ≤ n → saidSince c s.log = []) ∧
      (saidSince c s.log = [] ∨ saidSince c s.log = [(c, byeLine)])
  last : Justified Last s.log

theorem lastLine_append (h : ∀ line, .received c line ∉ new) :
    lastLine c (new ++ past) = lastLine c past := by
  induction new with
  | nil => rfl
  | cons e new ih =>
    have hrest := ih fun line hmem => h line (List.mem_cons_of_mem _ hmem)
    cases e with
    | received d line =>
      have hdc : d ≠ c := by
        rintro rfl
        exact h line List.mem_cons_self
      simpa [hdc] using hrest
    | named _ _ | delivered _ _ _ _ | closed _ _ => simpa using hrest

/-- A thread that has received its `QUIT` stays on its way. -/
theorem Quits.leaving_own (h : Quits s) (ha : Tracks s a) {choice : ClientChoice}
    (hok : PlainQuits (.client c choice)) (hs : Step x s (.client c choice) s') {line' : Bytes}
    (hline' : lastLine c s'.log = some line') (hquit' : QuitLine line') :
    ∃ t n, s'.threads c = some t ∧ Leaving t n ∧ (4 ≤ n → saidSince c s'.log = []) ∧
      (saidSince c s'.log = [] ∨ saidSince c s'.log = [(c, byeLine)]) := by
  by_cases hold : ∃ line, lastLine c s.log = some line ∧ QuitLine line
  · obtain ⟨line, hline, hquit⟩ := hold
    obtain ⟨t, n, ht, hleaving, hsilent, hsaid⟩ := h.leaving c line hline hquit
    obtain ⟨t', m, rfl, ht', hleaving', new, hlog, hnone, hnew⟩ := leaving_step ha ht hleaving hs
    refine ⟨t', m, ht', hleaving', ?_⟩
    rw [hlog, saidSince_append hnone]
    rcases hnew with hnew | ⟨rfl, hnew⟩
    · rw [hnew, List.nil_append]
      exact ⟨fun hm => hsilent (by omega), hsaid⟩
    · rw [hnew, hsilent (by omega), List.append_nil]
      exact ⟨fun hm => absurd hm (by omega), .inr rfl⟩
  · obtain ⟨new, hlog, -, hnew⟩ := log_of_step hs
    rcases hnew with hnew | ⟨d, raw, hl, rfl⟩
    · rw [hlog, lastLine_append fun line hmem => hnew _ hmem c line rfl] at hline'
      exact absurd ⟨line', hline', hquit'⟩ hold
    · cases hl
      cases hs with
      | @line _ t _ ht hpc hraw =>
        rw [hlog] at hline'
        obtain rfl : cstr raw = line' := by simpa using hline'
        refine ⟨_, 6, setThread_threads_self _ _ _, .find ?_, fun _ => ?_, .inl ?_⟩
        · rw [hok hquit']
        · simp [saidSince]
        · simp [saidSince]

theorem quits_step (h : Quits s) (ha : Tracks s a) {l : Label} (hok : PlainQuits l)
    (hs : Step x s l s') : Quits s' := by
  constructor
  · intro c line hline hquit
    by_cases hown : ∃ choice, l = .client c choice
    · obtain ⟨choice, rfl⟩ := hown
      exact h.leaving_own ha hok hs hline hquit
    · have hl : ∀ choice, l ≠ .client c choice := fun choice e => hown ⟨choice, e⟩
      rw [(memory_of_step hs hl).2] at hline
      obtain ⟨t, n, ht, hrest⟩ := h.leaving c line hline hquit
      obtain ⟨new, hlog, hauthor, -⟩ := log_of_step hs
      have hothers : ∀ e ∈ new, author e ≠ some c := by
        intro e he hc
        obtain ⟨choice, rfl⟩ := hauthor e he c hc
        exact hl choice rfl
      rw [hlog, saidSince_of_author hothers]
      exact ⟨t, n, threads_of_step ha hs ht hl, hrest⟩
  · obtain ⟨new, hlog, -, hnew | ⟨d, raw, rfl, rfl⟩⟩ := log_of_step hs
    · rw [hlog]
      exact h.last.append fun e he between _ c line heq => absurd heq (hnew e he c line)
    · rw [hlog]
      refine ⟨fun c line heq line' hline' hquit => ?_, h.last⟩
      cases heq
      obtain ⟨t, n, ht, hleaving, -⟩ := h.leaving _ line' hline' hquit
      cases hs with
      | line ht' hpc =>
        obtain rfl := Option.some.inj (ht.symm.trans ht')
        cases hleaving with
        | find hpc' | touch i hpc' | bye hpc' | break_ hpc' | removing hpc' | closing old hpc'
        | done hpc' =>
          rw [hpc] at hpc'
          cases hpc'

/-- What comes behind the last line of a connection that quits is no line. -/
theorem Last.quiet {post : List Event} (h : Justified Last (post ++ past)) {line : Bytes}
    (hline : lastLine c past = some line) (hquit : QuitLine line) :
    (∀ line', .received c line' ∉ post) ∧ lastLine c (post ++ past) = some line := by
  induction post with
  | nil => exact ⟨fun _ => List.not_mem_nil, hline⟩
  | cons e post ih =>
    obtain ⟨hnone, hlast⟩ := ih h.2
    have he : ∀ line', e ≠ .received c line' := by
      intro line' heq
      exact h.1 c line' heq line hlast hquit
    have hnone' : ∀ line', .received c line' ∉ e :: post := by
      intro line' hmem
      rcases List.mem_cons.1 hmem with heq | hmem
      · exact he line' heq.symm
      · exact hnone line' hmem
    exact ⟨hnone', (lastLine_append hnone').trans hline⟩

/-- Only a `QUIT` is answered with a goodbye. -/
theorem quitLine_of_bye {aim : Option Conn}
    (h : Spoken x past (.delivered (.client c) aim d byeLine)) :
    ∃ line, lastLine c past = some line ∧ QuitLine line := by
  have htype : (protoParseType (cstr byeLine)).1 = srvBye := by decide
  obtain ⟨name, -, ⟨-, hreply⟩ | ⟨line, -, hevent⟩⟩ := h
  · obtain ⟨word, args, hword, hbuf, -, -, hbye⟩ := hreply.line
    rw [hbuf, protoParseType_lineOf (isWord_of_replyWords word hword)] at htype
    exact hbye htype
  · have hevents := hevent.type
    rw [htype] at hevents
    exact absurd hevents (by decide)

/-- In a run in which no line but the thread's own spelling is received as `QUIT`, a connection ends
    with its `QUIT`. -/
theorem quitCloses_of_plainQuits (hx : x.KeepsSlots) (hb : x.Broadcasts) {timeout : Int}
    (hs : (serverSystem x timeout).ReachUnder (fun _ l => PlainQuits l) s) : QuitCloses x s := by
  have hquits : Quits s := by
    refine hs.invariant (P := Quits) ?_ ?_
    · refine ⟨fun c line hline => ?_, justified_nil⟩
      cases hline
    · intro s l s' hreach h hok hl
      obtain ⟨a, ha⟩ := tracks_reach hx hreach.reach
      exact quits_step h ha hok (step_cases hl)
  obtain ⟨a, ha, hspeaks⟩ := speaks_reach hx hs.reach
  refine ⟨?_, ?_, ?_⟩
  · intro post past c line hlog hquit
    have hlast := hquits.last
    rw [hlog] at hlast
    obtain ⟨hnone, hline⟩ := Last.quiet (c := c) hlast (by simp) hquit
    rw [← hlog] at hline
    obtain ⟨t, n, ht, hleaving, hsaid⟩ := hquits.leaving c line hline hquit
    have hpost : saidSince c s.log = saidBy c post := by
      rw [hlog, saidSince_append hnone]
      simp [saidSince]
    rw [hpost] at hsaid
    refine ⟨hnone, hsaid.2, t, n, ht, hleaving, hsaid.1, fun hn => ?_⟩
    exact not_live_of_thread ha ht (not_holding_of_leaving hleaving hn)
  · intro c t n ht hleaving now sent
    obtain ⟨s', hstep⟩ := leaving_enabled (x := x) ht hleaving now sent
    obtain ⟨t', m, hm, ht', hleaving', -⟩ := leaving_step ha ht hleaving (step_cases hstep)
    obtain rfl : n = m := by omega
    refine ⟨s', t', hstep, ht', hleaving', ?_⟩
    rintro rfl rfl
    exact leaving_bye ha ht hleaving hstep
  · intro post past c aim d hlog
    have hspoken := hspeaks.spoken hb
    have hlast := hquits.last
    rw [hlog] at hspoken hlast
    obtain ⟨line, hline, hquit⟩ := quitLine_of_bye hspoken.entry
    obtain ⟨hnone, hline'⟩ := Last.quiet hlast (by simpa using hline) hquit
    rw [← hlog] at hline'
    obtain ⟨t, n, -, -, -, hsaid⟩ := hquits.leaving c line hline' hquit
    rw [hlog, saidSince_append hnone] at hsaid
    refine ⟨hnone, ?_⟩
    simp only [saidSince, if_true] at hsaid
    cases hpost : saidBy c post with
    | nil => rfl
    | cons p rest =>
      rw [hpost] at hsaid
      simp at hsaid

/-- A client registers and quits. -/
def quits (line : String) : List Label :=
  connects 4 ++ turns 0 3 ++ writes 0 "REGISTER|ana\n" 9 ++ writes 0 line 6

theorem quitCloses_ana :
    ∃ s, (serverSystem managerExterns 60).runIf (fun _ l => decide (PlainQuits l))
        (serverInit 60) (quits "QUIT\n") = some s ∧ QuitCloses managerExterns s := by
  have hrun : ((serverSystem managerExterns 60).runIf (fun _ l => decide (PlainQuits l))
    (serverInit 60) (quits "QUIT\n")).isSome = true := by decide +kernel
  obtain ⟨s, hs⟩ := Option.isSome_iff_exists.1 hrun
  refine ⟨s, hs, quitCloses_of_plainQuits managerExterns_keepsSlots managerExterns_broadcasts
    (System.ReachUnder.init.runIf ?_ hs)⟩
  exact fun _ _ _ h => of_decide_eq_true h

/-- `QUIT` in another spelling is answered with a goodbye, and the next line is read. -/
theorem quit_not_heard :
    ¬ ∀ (x : Externs) (timeout : Int) (s : Server), x.KeepsSlots → x.Broadcasts →
      (serverSystem x timeout).Reach s → QuitCloses x s := by
  intro h
  obtain ⟨s, hs, hp⟩ := System.exists_reach_of_run (S := serverSystem managerExterns 60)
    (quits "QUIT|\n" ++ writes 0 "LIST\n" 0)
    (fun s => decide (s.log.head? = some (.received 0 (ascii "LIST\n")) ∧
      .received 0 (ascii "QUIT|\n") ∈ s.log.tail))
    (by decide +kernel)
  obtain ⟨hhead, htail⟩ := of_decide_eq_true hp
  have hclaimed := h managerExterns 60 s managerExterns_keepsSlots managerExterns_broadcasts hs
  obtain ⟨past', hlog⟩ := List.head?_eq_some_iff.1 hhead
  rw [hlog, List.tail_cons] at htail
  obtain ⟨post, past, rfl⟩ := List.append_of_mem htail
  have hquit : QuitLine (ascii "QUIT|\n") := by decide +kernel
  obtain ⟨hnone, -⟩ := hclaimed.closes (.received 0 (ascii "LIST\n") :: post) past 0 _ hlog hquit
  exact hnone _ List.mem_cons_self

end Server

end ChatMultithread
