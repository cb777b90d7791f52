import ChatMultithread.Lib.History
import ChatMultithread.Server.Proofs.TableOwnership

/-!
# What the log remembers

The name a connection was given last and the line its thread received last, read off the log, and
which steps change them: only the connection's own.
-/

namespace ChatMultithread

open Lib

/-- The name that `add_session` gave to `c` last, or the empty name. -/
def nameOf (c : Conn) : List Event → Bytes
  | [] => []
  | .named d user :: past => if d = c then user else nameOf c past
  | _ :: past => nameOf c past

/-- The line that the thread of `c` received last. -/
def lastLine (c : Conn) : List Event → Option Bytes
  | [] => none
  | .received d line :: past => if d = c then some line else lastLine c past
  | _ :: past => lastLine c past

/-- The connection whose thread has written an entry. -/
def author : Event → Option Conn
  | .received c _ | .named c _ | .delivered (.client c) _ _ _ => some c
  | .delivered .monitor _ _ _ | .closed _ _ => none

theorem author_delivered {src : Source} {aim : Option Conn} {dst c : Conn} {buf : Bytes} :
    author (.delivered src aim dst buf) = some c ↔ src = .client c := by
  cases src <;> simp [author]

/-- What was written to `d`, in this order. -/
def receivedBy (d : Conn) (log : List Event) : List Bytes :=
  (log.filterMap fun
    | .delivered _ _ dst buf => if dst = d then some buf else none
    | _ => none).reverse

theorem mem_receivedBy {d : Conn} {log : List Event} {buf : Bytes} :
    buf ∈ receivedBy d log ↔ ∃ src aim, .delivered src aim d buf ∈ log := by
  simp only [receivedBy, List.mem_reverse, List.mem_filterMap]
  constructor
  · rintro ⟨e, he, hbuf⟩
    cases e with
    | delivered src aim dst buf' =>
      dsimp only at hbuf
      split at hbuf
      · rename_i hdst
        subst hdst
        cases hbuf
        exact ⟨_, _, he⟩
      · cases hbuf
    | received _ _ | named _ _ | closed _ _ => cases hbuf
  · rintro ⟨src, aim, hmem⟩
    exact ⟨_, hmem, by simp⟩

theorem receivedBy_append (d : Conn) (past new : List Event) :
    receivedBy d (new ++ past) = receivedBy d past ++ receivedBy d new := by
  simp [receivedBy]

theorem receivedBy_eq_nil {d : Conn} {new : List Event}
    (h : ∀ src aim buf, .delivered src aim d buf ∉ new) : receivedBy d new = [] := by
  rw [List.eq_nil_iff_forall_not_mem]
  intro buf hbuf
  obtain ⟨src, aim, hmem⟩ := mem_receivedBy.1 hbuf
  exact h src aim buf hmem

section Memory

variable (c d : Conn) (past : List Event) (line user buf : Bytes) (src : Source)
  (aim owner : Option Conn) (dst : Conn)

@[simp] theorem nameOf_nil : nameOf c [] = [] := rfl
@[simp] theorem nameOf_named :
    nameOf c (.named d user :: past) = if d = c then user else nameOf c past := rfl
@[simp] theorem nameOf_received : nameOf c (.received d line :: past) = nameOf c past := rfl
@[simp] theorem nameOf_delivered :
    nameOf c (.delivered src aim dst buf :: past) = nameOf c past := rfl
@[simp] theorem nameOf_closed : nameOf c (.closed d owner :: past) = nameOf c past := rfl

@[simp] theorem lastLine_nil : lastLine c [] = none := rfl
@[simp] theorem lastLine_received :
    lastLine c (.received d line :: past) = if d = c then some line else lastLine c past := rfl
@[simp] theorem lastLine_named : lastLine c (.named d user :: past) = lastLine c past := rfl
@[simp] theorem lastLine_delivered :
    lastLine c (.delivered src aim dst buf :: past) = lastLine c past := rfl
@[simp] theorem lastLine_closed : lastLine c (.closed d owner :: past) = lastLine c past := rfl

end Memory

/-- A name that the log remembers was given. -/
theorem named_of_nameOf {c : Conn} {log : List Event} (h : nameOf c log ≠ []) :
    .named c (nameOf c log) ∈ log := by
  induction log with
  | nil => exact absurd rfl h
  | cons e past ih =>
    cases e with
    | named d user =>
      rw [nameOf_named] at h ⊢
      split at h
      · rename_i hd
        subst hd
        rw [if_pos rfl]
        exact List.mem_cons_self
      · rename_i hd
        rw [if_neg hd]
        exact List.mem_cons_of_mem _ (ih h)
    | received _ _ | delivered _ _ _ _ | closed _ _ => exact List.mem_cons_of_mem _ (ih h)

/-- A connection that has a name keeps having one. -/
theorem nameOf_append_ne {c : Conn} {new past : List Event}
    (hnew : ∀ user, .named c user ∈ new → user ≠ []) (h : nameOf c past ≠ []) :
    nameOf c (new ++ past) ≠ [] := by
  induction new with
  | nil => exact h
  | cons e new ih =>
    have hrest := ih fun user hmem => hnew user (List.mem_cons_of_mem _ hmem)
    cases e with
    | named d user =>
      rw [List.cons_append, nameOf_named]
      split
      · rename_i hd
        subst hd
        exact hnew user List.mem_cons_self
      · exact hrest
    | received _ _ | delivered _ _ _ _ | closed _ _ => exact hrest

/-- A connection that has been given names has one, if none of them was empty. -/
theorem nameOf_ne_of_named {c : Conn} {log : List Event}
    (hnames : ∀ user, .named c user ∈ log → user ≠ []) {user : Bytes} (h : .named c user ∈ log) :
    nameOf c log ≠ [] := by
  obtain ⟨post, past, rfl⟩ := List.append_of_mem h
  refine nameOf_append_ne (fun user hmem => hnames user (List.mem_append_left _ hmem)) ?_
  rw [nameOf_named, if_pos rfl]
  exact hnames user h

/-- The user that a `REGISTER_OK` is for, as a receiver reads it. -/
def registerOkName (buf : Bytes) : Option Bytes :=
  match protoParseType (cstr buf) with
  | (type, some rest) =>
      if type = srvRegisterOk then (strchr fieldSepChar rest).map Prod.fst else none
  | (_, none) => none

theorem registerOkName_eq_some {buf user : Bytes} (h : registerOkName buf = some user) :
    fieldSepChar ∉ user ∧
      ∃ rest, protoParseType (cstr buf) = (srvRegisterOk, some (user ++ fieldSepChar :: rest)) := by
  unfold registerOkName at h
  split at h
  · rename_i type rest htype
    split at h
    · rename_i hok
      obtain ⟨⟨u, rest'⟩, hsplit, rfl⟩ := Option.map_eq_some_iff.1 h
      obtain ⟨rfl, hnot⟩ := strchr_eq_some hsplit
      subst hok
      exact ⟨hnot, rest', htype⟩
    · cases h
  · cases h

/-- The users for which the thread of `c` has answered it `REGISTER_OK`, the last one in front. -/
def answers (c : Conn) (log : List Event) : List Bytes :=
  log.filterMap fun
    | .delivered (.client d) _ dst buf => if d = c ∧ dst = c then registerOkName buf else none
    | _ => none

theorem mem_answers {c : Conn} {log : List Event} {user : Bytes} :
    user ∈ answers c log ↔
      ∃ aim buf, .delivered (.client c) aim c buf ∈ log ∧ registerOkName buf = some user := by
  simp only [answers, List.mem_filterMap]
  constructor
  · rintro ⟨e, he, huser⟩
    split at huser
    · split at huser
      · rename_i hc
        obtain ⟨rfl, rfl⟩ := hc
        exact ⟨_, _, he, huser⟩
      · cases huser
    · cases huser
  · rintro ⟨aim, buf, hmem, huser⟩
    exact ⟨_, hmem, by simpa using huser⟩

theorem answers_append (c : Conn) (new past : List Event) :
    answers c (new ++ past) = answers c new ++ answers c past :=
  List.filterMap_append

namespace Server

/-- The operation that the thread of `c` performs next. -/
def nextOp (s : Server) (c : Conn) : Option Op :=
  match s.threads c with
  | none => none
  | some t =>
      match t.pc with
      | .handling (.call o _) => some o
      | _ => none

theorem nextOp_eq_some {s : Server} {c : Conn} {o : Op} :
    s.nextOp c = some o ↔
      ∃ t k, s.threads c = some t ∧ t.pc = .handling (.call o k) := by
  unfold nextOp
  constructor
  · intro h
    split at h
    · cases h
    · rename_i t ht
      split at h
      · rename_i o' k hpc
        cases h
        exact ⟨t, k, ht, hpc⟩
      · cases h
  · rintro ⟨t, k, ht, hpc⟩
    simp only [ht, hpc]

theorem nextOp_of_pc {s : Server} {c : Conn} {t : Thread} (ht : s.threads c = some t) 
    (hpc : ∀ o k, t.pc ≠ .handling (.call o k)) : s.nextOp c = none := by
  rw [Option.eq_none_iff_forall_not_mem]
  intro o ho
  obtain ⟨t', k, ht', hpc'⟩ := nextOp_eq_some.1 ho
  obtain rfl := Option.some.inj (ht.symm.trans ht')
  exact hpc o k hpc'

/-- The deliveries of a broadcast, as they stand in the log. -/
def deliveries (s : Server) (src : Source) (sends : List (Int × Bytes)) : List Event :=
  (sends.filterMap fun p =>
    (s.fds p.1).map fun dst => Event.delivered src (some dst) dst p.2).reverse

theorem deliverAll_log (s : Server) (src : Source) (sends : List (Int × Bytes)) :
    (s.deliverAll src sends).log = s.deliveries src sends ++ s.log := by
  rw [deliverAll_eq]
  rfl

theorem mem_deliveries {s : Server} {src : Source} {sends : List (Int × Bytes)} {e : Event} :
    e ∈ s.deliveries src sends ↔
      ∃ p ∈ sends, ∃ dst, s.fds p.1 = some dst ∧ e = .delivered src (some dst) dst p.2 := by
  simp only [deliveries, List.mem_reverse, List.mem_filterMap, Option.map_eq_some_iff]
  constructor
  · rintro ⟨p, hp, dst, hdst, rfl⟩
    exact ⟨p, hp, dst, hdst, rfl⟩
  · rintro ⟨p, hp, dst, hdst, rfl⟩
    exact ⟨p, hp, dst, hdst, rfl⟩

/-- What one user receives of a broadcast. -/
theorem receivedBy_deliveries {s : Server} {src : Source} {d : Conn} (sends : List (Int × Bytes)) :
    receivedBy d (s.deliveries src sends) =
      sends.filterMap fun p => if s.fds p.1 = some d then some p.2 else none := by
  rw [receivedBy, deliveries, List.filterMap_reverse, List.reverse_reverse, List.filterMap_filterMap]
  congr 1
  funext p
  cases s.fds p.1 <;> simp

/-- A broadcast of one string to distinct descriptors reaches a user with one descriptor once at
    most. -/
theorem receivedBy_broadcast {s : Server} {src : Source} {d : Conn} {sends : List (Int × Bytes)}
    {msg : Bytes}
    (hinj : ∀ p ∈ sends, ∀ q ∈ sends, s.fds p.1 = some d → s.fds q.1 = some d → p.1 = q.1)
    (hnodup : (sends.map Prod.fst).Nodup) (hmsg : ∀ p ∈ sends, p.2 = msg) :
    receivedBy d (s.deliveries src sends) = [] ∨ receivedBy d (s.deliveries src sends) = [msg] := by
  rw [receivedBy_deliveries]
  induction sends with
  | nil => exact .inl rfl
  | cons p sends ih =>
    rw [List.map_cons, List.nodup_cons] at hnodup
    obtain ⟨hp, hrest⟩ := List.forall_mem_cons.1 hmsg
    obtain ⟨hinjp, hinjrest⟩ := List.forall_mem_cons.1 hinj
    rw [List.filterMap_cons]
    by_cases hdst : s.fds p.1 = some d
    · have hnone : (sends.filterMap fun p => if s.fds p.1 = some d then some p.2 else none) = [] := by
        apply List.filterMap_eq_nil_iff.2
        intro q hq
        apply if_neg
        intro hq'
        exact hnodup.1 (List.mem_map.2 ⟨q, hq, (hinjp q (List.mem_cons_of_mem _ hq) hdst hq').symm⟩)
      rw [if_pos hdst, hnone, hp]
      exact .inr rfl
    · rw [if_neg hdst]
      refine ih (fun q hq q' hq' => ?_) hnodup.2 hrest
      exact hinjrest q hq q' (List.mem_cons_of_mem _ hq')

/-- Deliveries change neither memory. -/
theorem memory_append {new : List Event}
    (hnew : ∀ e ∈ new, ∃ src aim dst buf, e = .delivered src aim dst buf) (c : Conn)
    (past : List Event) :
    nameOf c (new ++ past) = nameOf c past ∧ lastLine c (new ++ past) = lastLine c past := by
  induction new with
  | nil => exact ⟨rfl, rfl⟩
  | cons e new ih =>
    obtain ⟨src, aim, dst, buf, rfl⟩ := hnew e List.mem_cons_self
    exact ih fun e' he' => hnew e' (List.mem_cons_of_mem _ he')

theorem memory_deliver (s : Server) (src : Source) (aim : Option Conn) (fd : Int) (buf : Bytes)
    (c : Conn) : nameOf c (s.deliver src aim fd buf).log = nameOf c s.log ∧
      lastLine c (s.deliver src aim fd buf).log = lastLine c s.log := by
  rw [deliver_log]
  split <;> exact ⟨rfl, rfl⟩

theorem memory_deliverAll (s : Server) (src : Source) (sends : List (Int × Bytes)) (c : Conn) :
    nameOf c (s.deliverAll src sends).log = nameOf c s.log ∧
      lastLine c (s.deliverAll src sends).log = lastLine c s.log := by
  rw [deliverAll_log]
  refine memory_append (fun e he => ?_) c s.log
  obtain ⟨p, -, dst, -, rfl⟩ := mem_deliveries.1 he
  exact ⟨_, _, _, _, rfl⟩

variable {x : Externs} {s s' : Server} {c d : Conn}

/-- An operation changes at most the name of the connection that performs it. -/
theorem memory_perform {t : Thread} {now : Int} {sent : Bool} {o : Op} {r : o.Resp}
    {target : Option (Int × Option Conn)}
    (h : s.perform x c t now sent o = some (r, s', target)) :
    lastLine d s'.log = lastLine d s.log ∧
      nameOf d s'.log = match o with
        | .addSession user _ => if c = d then user else nameOf d s.log
        | _ => nameOf d s.log := by
  cases o
  case undefinedBehaviour => cases h
  case broadcastAll msg =>
    cases h
    exact (memory_deliverAll _ _ _ d).symm
  case broadcastExcept msg fd =>
    cases h
    exact (memory_deliverAll _ _ _ d).symm
  case send fd buf =>
    cases h
    dsimp only
    split
    · exact (memory_deliver _ _ _ _ _ d).symm
    · exact ⟨rfl, rfl⟩
  all_goals
    cases h
    exact ⟨rfl, rfl⟩

/-- The steps of others leave the memory of a connection alone. -/
theorem memory_of_step {l : Label} (hs : Step x s l s') (hl : ∀ choice, l ≠ .client d choice) :
    nameOf d s'.log = nameOf d s.log ∧ lastLine d s'.log = lastLine d s.log := by
  cases hs with
  | @perform c t now sent o k r s₁ target ht hpc hop =>
    have hcd : c ≠ d := by
      rintro rfl
      exact hl _ rfl
    obtain ⟨hline, hname⟩ := memory_perform (d := d) hop
    refine ⟨?_, hline⟩
    rw [setThread_log, hname]
    cases o <;> simp [hcd]
  | @line c t raw ht hpc hraw =>
    have hcd : c ≠ d := by
      rintro rfl
      exact hl _ rfl
    simp [hcd]
  | welcome =>
    rw [setThread_log]
    exact memory_deliver _ _ _ _ _ d
  | notify => exact memory_deliver _ _ _ _ _ d
  | start | welcomeFailed | turn | hangup | continue_ | break_ | remove | removeInvalid
  | removeMissing | close | acceptMove | connection | addFull | add | reject | findNone | find
  | create | createFailed | undoMissing | undo | undoInvalid | undoClose | store | tick
  | monitorMove | signal => exact ⟨rfl, rfl⟩

/-- A connection gets a name by its own `add_session` only. -/
theorem nameOf_of_step {l : Label} (hs : Step x s l s') :
    nameOf d s'.log = nameOf d s.log ∨ ∃ now sent user fd, l = .client d (.go now sent) ∧
      s.nextOp d = some (.addSession user fd) ∧ nameOf d s'.log = user := by
  by_cases hown : ∃ choice, l = .client d choice
  · obtain ⟨choice, rfl⟩ := hown
    cases hs with
    | @perform _ t now sent o k r s₁ target ht hpc hop =>
      have hname := (memory_perform (d := d) hop).2
      cases o
      case addSession user fd =>
        refine .inr ⟨now, sent, user, fd, rfl, nextOp_eq_some.2 ⟨t, k, ht, hpc⟩, ?_⟩
        rw [setThread_log, hname]
        exact if_pos rfl
      all_goals exact .inl hname
    | welcome => exact .inl (memory_deliver _ _ _ _ _ d).1
    | start | welcomeFailed | turn | line | hangup | continue_ | break_ | remove | removeInvalid
    | removeMissing | close => exact .inl rfl
  · exact .inl (memory_of_step hs fun choice e => hown ⟨choice, e⟩).1

/-- The log grows by what the thread that steps has done, and by at most one line that was received,
    which is then all. -/
def Grows (l : Label) (log log' : List Event) : Prop :=
  ∃ new, log' = new ++ log ∧
    (∀ e ∈ new, ∀ c, author e = some c → ∃ choice, l = .client c choice) ∧
    ((∀ e ∈ new, ∀ c line, e ≠ .received c line) ∨
      ∃ c raw, l = .client c (.line raw) ∧ new = [.received c (cstr raw)])

theorem grows_refl (l : Label) (log : List Event) : Grows l log log :=
  ⟨[], rfl, by simp, .inl (by simp)⟩

theorem grows_cons {l : Label} {log : List Event} {e : Event}
    (hauthor : ∀ c, author e = some c → ∃ choice, l = .client c choice)
    (he : ∀ c line, e ≠ .received c line) : Grows l log (e :: log) := by
  refine ⟨[e], rfl, fun e' he' => ?_, .inl fun e' he' => ?_⟩ <;>
    obtain rfl := List.mem_singleton.1 he'
  · exact hauthor
  · exact he

theorem grows_deliver {l : Label} (s : Server) (src : Source) (aim : Option Conn) (fd : Int)
    (buf : Bytes) (hsrc : ∀ c, src = .client c → ∃ choice, l = .client c choice) :
    Grows l s.log (s.deliver src aim fd buf).log := by
  rw [deliver_log]
  split
  · exact grows_refl l s.log
  · exact grows_cons (fun c hc => hsrc c (author_delivered.1 hc)) (by simp)

theorem grows_deliverAll {l : Label} (s : Server) (src : Source) (sends : List (Int × Bytes))
    (hsrc : ∀ c, src = .client c → ∃ choice, l = .client c choice) :
    Grows l s.log (s.deliverAll src sends).log := by
  refine ⟨_, deliverAll_log s src sends, fun e he c hc => ?_, .inl fun e he c line h => ?_⟩
  · obtain ⟨p, -, dst, -, rfl⟩ := mem_deliveries.1 he
    exact hsrc c (author_delivered.1 hc)
  · obtain ⟨p, -, dst, -, rfl⟩ := mem_deliveries.1 he
    cases h

/-- What a step writes into the log. -/
theorem log_of_step {l : Label} (hs : Step x s l s') : Grows l s.log s'.log := by
  cases hs with
  | @perform d t now sent o k r s₁ target ht hpc hop =>
    have hsrc : ∀ c, Source.client d = .client c →
        ∃ choice, Label.client d (.go now sent) = .client c choice := by
      rintro c ⟨⟩
      exact ⟨_, rfl⟩
    rw [setThread_log]
    cases o
    case undefinedBehaviour => cases hop
    case addSession user fd =>
      cases hop
      refine grows_cons (fun c hc => ?_) (by simp)
      cases hc
      exact ⟨_, rfl⟩
    case broadcastAll msg =>
      cases hop
      exact grows_deliverAll _ _ _ hsrc
    case broadcastExcept msg fd =>
      cases hop
      exact grows_deliverAll _ _ _ hsrc
    case send fd buf =>
      cases hop
      split
      · exact grows_deliver _ _ _ _ _ hsrc
      · exact grows_refl _ _
    all_goals
      cases hop
      exact grows_refl _ _
  | welcome =>
    refine grows_deliver _ _ _ _ _ fun c h => ?_
    cases h
    exact ⟨_, rfl⟩
  | notify =>
    refine grows_deliver _ _ _ _ _ fun c h => ?_
    cases h
  | @line c t raw =>
    refine ⟨[_], rfl, fun e he d hd => ?_, .inr ⟨c, raw, rfl, rfl⟩⟩
    obtain rfl := List.mem_singleton.1 he
    cases hd
    exact ⟨_, rfl⟩
  | close | reject | undoClose =>
    refine grows_cons (fun c hc => ?_) (by simp)
    cases hc
  | start | welcomeFailed | turn | hangup | continue_ | break_ | remove | removeInvalid
  | removeMissing | acceptMove | connection | addFull | add | findNone | find | create
  | createFailed | undoMissing | undo | undoInvalid | store | tick | monitorMove | signal =>
    exact grows_refl _ _

/-- A name gets into the log by `add_session` only. -/
theorem named_of_step {l : Label} (hs : Step x s l s') {user : Bytes}
    (hmem : .named c user ∈ s'.log) :
    .named c user ∈ s.log ∨
      ∃ now sent fd, l = .client c (.go now sent) ∧ s.nextOp c = some (.addSession user fd) := by
  have hdeliver : ∀ (src : Source) (aim : Option Conn) (fd : Int) (buf : Bytes),
      .named c user ∈ (s.deliver src aim fd buf).log → .named c user ∈ s.log := by
    intro src aim fd buf hmem
    rw [deliver_log] at hmem
    split at hmem
    · exact hmem
    · simpa using hmem
  have hdeliverAll : ∀ (src : Source) (sends : List (Int × Bytes)),
      .named c user ∈ (s.deliverAll src sends).log → .named c user ∈ s.log := by
    intro src sends hmem
    rw [deliverAll_log, List.mem_append, mem_deliveries] at hmem
    rcases hmem with ⟨p, -, dst, -, he⟩ | hmem
    · cases he
    · exact hmem
  cases hs with
  | perform ht hpc hop =>
    rename_i o _ _ _ _
    rw [setThread_log] at hmem
    cases o
    case undefinedBehaviour => cases hop
    case addSession u fd =>
      cases hop
      rcases List.mem_cons.1 hmem with he | hmem
      · cases he
        exact .inr ⟨_, _, _, rfl, nextOp_eq_some.2 ⟨_, _, ht, hpc⟩⟩
      · exact .inl hmem
    case broadcastAll msg =>
      cases hop
      exact .inl (hdeliverAll _ _ hmem)
    case broadcastExcept msg fd =>
      cases hop
      exact .inl (hdeliverAll _ _ hmem)
    case send fd buf =>
      cases hop
      split at hmem
      · exact .inl (hdeliver _ _ _ _ hmem)
      · exact .inl hmem
    all_goals
      cases hop
      exact .inl hmem
  | welcome | notify => exact .inl (hdeliver _ _ _ _ hmem)
  | line | close | reject | undoClose => exact .inl (by simpa using hmem)
  | start | welcomeFailed | turn | hangup | continue_ | break_ | remove | removeInvalid
  | removeMissing | acceptMove | connection | addFull | add | findNone | find | create
  | createFailed | undoMissing | undo | undoInvalid | store | tick | monitorMove | signal =>
    exact .inl hmem

/-- What the steps of a run demand of each line, every received line satisfies. -/
theorem received_justified {timeout : Int} {ok : Server → Label → Prop}
    {R : Conn → List Event → Bytes → Prop}
    (hok : ∀ s c raw, ok s (.client c (.line raw)) → R c s.log (cstr raw))
    (hs : (serverSystem x timeout).ReachUnder ok s) :
    Justified (fun past e => ∀ c line, e = .received c line → R c past line) s.log := by
  refine hs.invariant (P := fun s : Server =>
    Justified (fun past e => ∀ c line, e = .received c line → R c past line) s.log) ?_ ?_
  · exact justified_nil
  intro s l s' _ hlog hl hstep
  obtain ⟨new, heq, -, hnew | ⟨c, raw, rfl, rfl⟩⟩ := log_of_step (step_cases hstep)
  · rw [heq]
    exact hlog.append fun e he between _ c line h => absurd h (hnew e he c line)
  · rw [heq]
    refine ⟨fun d line h => ?_, hlog⟩
    cases h
    exact hok s c raw hl

/-- The steps of others leave a thread alone, or create it. -/
theorem thread_of_other {a : Lives} (h : Tracks s a) {l : Label} (hs : Step x s l s')
    (hl : ∀ choice, l ≠ .client d choice) {t : Thread} (ht : s'.threads d = some t) :
    s.threads d = some t ∨ s.threads d = none ∧ t.pc = .start ∧ t.target = none := by
  cases hold : s.threads d with
  | some u =>
    have hkeep := threads_of_step h hs hold hl
    rw [hkeep] at ht
    exact .inl ht
  | none =>
    refine .inr ⟨rfl, ?_⟩
    cases hs with
    | @create fd c i hpc =>
      rcases setThread_threads_cases ht with ⟨-, rfl⟩ | ⟨-, ht⟩
      · exact ⟨rfl, rfl⟩
      · rw [hold] at ht
        cases ht
    | @perform c _ _ _ _ _ _ _ _ _ _ hop =>
      rw [setThread_threads_ne _ _ _ (by rintro rfl; exact hl _ rfl), perform_frame hop, hold] at ht
      cases ht
    | start | welcomeFailed | turn | line | hangup | continue_ | break_ | remove | removeInvalid
    | removeMissing | close =>
      rw [setThread_threads_ne _ _ _ (by rintro rfl; exact hl _ rfl)] at ht
      cases hold.symm.trans ht
    | welcome =>
      rw [setThread_threads_ne _ _ _ (by rintro rfl; exact hl _ rfl), deliver_threads, hold] at ht
      cases ht
    | notify =>
      rw [deliver_threads, hold] at ht
      cases ht
    | acceptMove | connection | addFull | add | reject | findNone | find | createFailed
    | undoMissing | undo | undoInvalid | undoClose | store | tick | monitorMove | signal =>
      cases hold.symm.trans ht

end Server

end ChatMultithread
