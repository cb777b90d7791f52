import ChatMultithread.Client.Passes
import ChatMultithread.Client.Resources

/-!
# What the client process sends

`main` sends `REGISTER` once, in front of everything else, and `QUIT` once, behind it. In between
the input loop sends what the typed lines stand for, line by line, and its own `QUIT` at the end.
-/

namespace ChatMultithread

open Lib

/-- What the log has sent, and whether `send` succeeded. -/
def sends (log : List Act) : List (Bytes × Bool) :=
  log.filterMap fun
    | .sent buf ok => some (buf, ok)
    | _ => none

@[simp] theorem sends_append (log log' : List Act) :
    sends (log ++ log') = sends log ++ sends log' := List.filterMap_append

/-! ## What `main` says itself -/

/-- `main` says `word` once at most: the state tells whether it has, and with which outcome. The
    socket is open where its descriptor is read. -/
def sayingOnce (word : Bytes) : Monitor MainOp MainOp.Resp (Option Bool) where
  allows g o := ∀ buf, o = .send buf → g = none ∧ buf = word
  answers _ o r := match o, r with
    | .sockfd, r => 0 ≤ r
    | _, _ => True
  next g o r := match o, r with
    | .send _, r => some r
    | _, _ => g

/-- What has been said. -/
def utterance (word : Bytes) (g : Option Bool) : List (Bytes × Bool) := g.toList.map (Prod.mk word)

section Main

variable {word : Bytes} {α : Type} {post : Option Bool → α → Prop} {g : Option Bool}

/-- An operation that says nothing. -/
theorem safe_silent {o : MainOp} {k : o.Resp → MainProg α}
    (h : ∀ r, (sayingOnce word).answers g o r → (sayingOnce word).Safe post g (k r))
    (ho : ∀ buf, o ≠ .send buf := by intro buf h; cases h) :
    (sayingOnce word).Safe post g (.call o k) := by
  refine ⟨fun buf hbuf => absurd hbuf (ho buf), ?_⟩
  cases o with
  | send buf => exact absurd rfl (ho buf)
  | _ => exact h

theorem safe_clientConnect (serverIp : Bytes) (port : Int) :
    (sayingOnce word).Safe (fun g _ => g = none) none (clientConnect serverIp port) := by
  have hgiveUp : (sayingOnce word).Safe (fun g (_ : ClientResult) => g = none) none giveUp := by
    refine safe_silent ?_
    exact fun _ _ => safe_silent fun _ _ => rfl
  refine safe_silent ?_
  intro sockfd _
  show (sayingOnce word).Safe _ none (if sockfd < 0 then _ else _)
  split
  · exact rfl
  · refine safe_silent ?_
    intro known _
    cases known with
    | false => exact hgiveUp
    | true =>
      refine safe_silent ?_
      intro connected _
      cases connected with
      | false => exact hgiveUp
      | true => rfl

/-- A registration that succeeds has sent `REGISTER`. -/
theorem safe_clientRegistration (state : ClientState) (username : Bytes) :
    (sayingOnce (protoRegister username)).Safe
      (fun g result => ∀ state', result = .ok state' → g = some true) none
      (clientRegistration state username) := by
  refine safe_silent ?_
  intro n _
  cases n with
  | closed | failed => exact fun state' h => nomatch h
  | line buffer =>
    show (sayingOnce _).Safe _ none (if _ then _ else _)
    split
    · exact fun state' h => nomatch h
    · refine ⟨fun buf hbuf => ⟨rfl, by cases hbuf; rfl⟩, fun sent _ => ?_⟩
      cases sent with
      | false => exact fun state' h => nomatch h
      | true =>
        refine safe_silent ?_
        intro n _
        cases n with
        | closed | failed => exact fun state' h => nomatch h
        | line buffer => exact fun _ _ => rfl

/-- `main` goes on behind a `REGISTER`. -/
def Introduced (g : Option Bool) (started : Started) : Prop := started ≠ .failure → g = some true

theorem safe_clientMain (argv : List Bytes) :
    (sayingOnce (protoRegister (argv.headD []))).Safe Introduced none (clientMain argv) := by
  have hfailure : ∀ word g, (sayingOnce word).Safe Introduced g (.ret .failure) :=
    fun word g h => absurd rfl h
  unfold clientMain
  split
  · rename_i username serverIp portStr
    rw [List.headD_cons]
    split
    · exact hfailure _ none
    split
    · exact hfailure _ none
    refine safe_silent ?_
    intro init _
    cases init with
    | false => exact hfailure _ none
    | true =>
      show (sayingOnce _).Safe _ none (clientConnect _ _ >>= _)
      rw [Monitor.safe_bind]
      apply (safe_clientConnect _ _).mono
      rintro g result rfl
      split
      · refine safe_silent ?_
        exact fun _ _ => hfailure _ none
      · show (sayingOnce _).Safe _ none (mainRegister username)
        unfold mainRegister
        rw [Monitor.safe_bind]
        apply (safe_clientRegistration clientInit username).mono
        intro g result hresult
        cases result with
        | error e =>
          refine safe_silent ?_
          intro _ _
          refine safe_silent ?_
          exact fun _ _ => hfailure _ g
        | ok state =>
          rw [hresult state rfl]
          refine safe_silent ?_
          intro _ _
          refine safe_silent ?_
          intro created _
          cases created with
          | false => exact fun _ => rfl
          | true =>
            refine safe_silent ?_
            exact fun _ _ _ => rfl
  · exact hfailure _ none

/-- `client_disconnect` says `QUIT`. -/
theorem safe_clientDisconnect :
    (sayingOnce protoQuit).Safe (fun g _ => g.isSome = true) none clientDisconnect := by
  refine safe_silent ?_
  intro sockfd hfd
  show (sayingOnce _).Safe _ none (if sockfd < 0 then _ else _)
  rw [if_neg (Int.not_lt.2 hfd)]
  refine ⟨fun buf hbuf => ⟨rfl, by cases hbuf; rfl⟩, fun sent _ => ?_⟩
  refine safe_silent ?_
  intro _ _
  refine safe_silent ?_
  intro _ _
  refine safe_silent ?_
  exact fun _ _ => rfl

theorem safe_clientLeave :
    (sayingOnce protoQuit).Safe (fun g _ => g.isSome = true) none clientLeave := by
  refine safe_silent ?_
  exact fun _ _ => safe_clientDisconnect

end Main

/-! ## What the input loop says -/

/-- What is sent for a line, other than for `/quit`. -/
def spokenFor (line : Bytes) : Option Bytes :=
  if (Phase.commandOf line).type = .quit then none
  else
    match commandToProto (Phase.commandOf line) with
    | (.ok, buf) => some buf
    | _ => none

/-- What is sent for the lines, each of them in its turn. -/
def spoken (lines : List Bytes) : List Bytes := lines.filterMap spokenFor

/-- The lines that `fgets` cuts off the input, and what is left of it. -/
inductive Cuts (stdin : Bytes) : List Bytes → Bytes → Prop
  | nil : Cuts stdin [] stdin
  | snoc {lines : List Bytes} {line rest rest' : Bytes} (h : Cuts stdin lines rest)
      (hline : fgets maxMsgLen rest = (some line, rest')) : Cuts stdin (lines ++ [line]) rest'

/-- Where the input loop stands with its line: it has none; it has not said anything for it yet;
    it has; or it is to leave, and has cleared the flag or said `QUIT` or both. -/
inductive Speech where
  | idle
  | heard (line : Bytes)
  | said (line : Bytes) (ok : Bool)
  | parting (stopped toldQuit : Bool)

namespace Speech

inductive Allows : Speech → InputOp → Prop
  | running (g : Speech) : Allows g .running
  | print (g : Speech) (ps : List Printed) : Allows g (.print ps)
  | fgets : Allows .idle .fgets
  | send {line buf : Bytes} (h : spokenFor line = some buf) : Allows (.heard line) (.send buf)
  | sendQuit {line : Bytes} (h : (Phase.commandOf line).type = .quit) :
      Allows (.heard line) (.send protoQuit)
  | sendEnd : Allows (.parting true false) (.send protoQuit)
  | stop (toldQuit : Bool) : Allows (.parting false toldQuit) .stop

def next : (g : Speech) → (o : InputOp) → o.Resp → Speech
  | _, .fgets, none => .parting false false
  | _, .fgets, some line => .heard line
  | .heard line, .send _, ok =>
      if (Phase.commandOf line).type = .quit then .parting false true else .said line ok
  | .parting stopped _, .send _, _ => .parting stopped true
  | .parting _ toldQuit, .stop, _ => .parting true toldQuit
  | g, _, _ => g

/-- How a pass ends: a line is left unsaid only where there is nothing to say, or where the flag
    was found clear. -/
inductive Post : Speech → Option ClientResult → Prop
  | first : Post .idle none
  | silent {line : Bytes} (hquit : (Phase.commandOf line).type ≠ .quit)
      (h : spokenFor line = none) : Post (.heard line) none
  | said (line : Bytes) : Post (.said line true) none
  | disconn : Post .idle (some .disconn)
  | disconnHeard (line : Bytes) : Post (.heard line) (some .disconn)
  | quit : Post (.parting true true) (some .quit)
  | err (line : Bytes) : Post (.said line false) (some .err)

/-- The monitor of the input loop. -/
def monitor : Monitor InputOp InputOp.Resp Speech where
  allows := Allows
  answers _ _ _ := True
  next := next

theorem safe_sendProto {post : Speech → ClientResult → Prop} {g : Speech} {buf : Bytes}
    (hallowed : Allows g (.send buf)) (hok : post (g.next (.send buf) true) .ok)
    (herr : post (g.next (.send buf) false) .err) : monitor.Safe post g (sendProto buf) := by
  refine ⟨hallowed, fun sent _ => ?_⟩
  cases sent with
  | true => exact hok
  | false =>
    refine ⟨.print _ _, fun r _ => ?_⟩
    show post ((g.next (.send buf) false).next (.print [.notSent]) r) .err
    generalize g.next (.send buf) false = g' at herr ⊢
    cases g' <;> exact herr

/-- How `handle_command` ends. -/
inductive Handled (line : Bytes) : Speech → ClientResult → Prop
  | silent (hquit : (Phase.commandOf line).type ≠ .quit) (h : spokenFor line = none) :
      Handled line (.heard line) .ok
  | said : Handled line (.said line true) .ok
  | err : Handled line (.said line false) .err
  | quit : Handled line (.parting true true) .quit

theorem spokenFor_eq_none {line : Bytes} (h : carriedOut (Phase.commandOf line) = false) :
    spokenFor line = none := by
  unfold spokenFor
  split
  · rfl
  · split
    · rename_i buf heq
      rw [carriedOut, heq] at h
      simp at h
    · rfl

theorem safe_handleCommand (line : Bytes) :
    monitor.Safe (Handled line) (.heard line) (handleCommand (Phase.commandOf line)) := by
  rcases handleCommand_cases (Phase.commandOf line) with ⟨hnot, p, hp, heq⟩ | ⟨hhelp, heq⟩ |
    ⟨buf, hbuf, hquit, heq⟩ | ⟨hquit, heq⟩
  · have hne : (Phase.commandOf line).type ≠ .quit := by
      intro hquit
      simp [carriedOut, commandToProto, hquit] at hnot
    rw [heq]
    exact ⟨.print _ _, fun _ _ => .silent hne (spokenFor_eq_none hnot)⟩
  · have hne : (Phase.commandOf line).type ≠ .quit := by
      rw [hhelp]
      decide
    have hnone : spokenFor line = none := by
      rw [spokenFor, if_neg hne, commandToProto, hhelp]
    rw [heq]
    exact ⟨.print _ _, fun _ _ => .silent hne hnone⟩
  · have hspoken : spokenFor line = some buf := by rw [spokenFor, if_neg hquit, hbuf]
    have hnext : ∀ ok, next (.heard line) (.send buf) ok = .said line ok := fun ok => if_neg hquit
    rw [heq]
    apply safe_sendProto (.send hspoken)
    · rw [hnext]
      exact .said
    · rw [hnext]
      exact .err
  · have hnext : ∀ ok, next (.heard line) (.send protoQuit) ok = .parting false true :=
      fun ok => if_pos hquit
    rw [heq, Monitor.safe_bind]
    apply safe_sendProto (.sendQuit hquit)
    · rw [hnext]
      exact ⟨.stop _, fun _ _ => .quit⟩
    · rw [hnext]
      exact ⟨.stop _, fun _ _ => .quit⟩

theorem safe_lineTurn (line : Bytes) : monitor.Safe Post (.heard line) (lineTurn line) := by
  unfold lineTurn
  split
  · rename_i hempty
    have hcommand : Phase.commandOf line = noCommand := parseCommand_of_isEmptyLine hempty
    refine ⟨.print _ _, fun _ _ => .silent ?_ (spokenFor_eq_none ?_)⟩
    · rw [hcommand]
      decide
    · rw [hcommand]
      decide
  · rw [Monitor.safe_bind]
    apply (safe_handleCommand line).mono
    intro g result hresult
    cases hresult with
    | silent hquit h => exact .silent hquit h
    | said => exact .said line
    | err => exact .err line
    | quit => exact .quit

theorem safe_inputTurn : monitor.Safe Post .idle inputTurn := by
  refine ⟨.running _, fun running _ => ?_⟩
  cases running with
  | false => exact .disconn
  | true =>
    refine ⟨.fgets, fun line _ => ?_⟩
    cases line with
    | none =>
      refine ⟨.stop _, fun _ _ => ?_⟩
      show monitor.Safe Post (.parting true false) (sendProto protoQuit >>= fun _ => .ret (some .quit))
      rw [Monitor.safe_bind]
      apply safe_sendProto .sendEnd
      · exact .quit
      · exact .quit
    | some line =>
      refine ⟨.running _, fun running _ => ?_⟩
      cases running with
      | false => exact .disconnHeard line
      | true => exact safe_lineTurn line

theorem safe_inputLoop : monitor.Safe Post .idle inputLoop :=
  ⟨.print _ _, fun _ _ => .first⟩

end Speech

/-! ## Runs -/

/-- The lines have been read one by one, none of them `/quit`, and `rest` is left. -/
structure Talk (stdin : Bytes) (lines : List Bytes) (rest : Bytes) : Prop where
  cuts : Cuts stdin lines rest
  quit : ∀ line ∈ lines, (Phase.commandOf line).type ≠ .quit

/-- What has been said for the lines. -/
def told (lines : List Bytes) : List (Bytes × Bool) := (spoken lines).map fun buf => (buf, true)

/-- What the input loop has said and read, where it stands. -/
def Speech.Tracks (stdin : Bytes) (lines : List Bytes) (left : Bytes) (said : List (Bytes × Bool)) :
    Speech → Prop
  | .idle => Talk stdin lines left ∧ said = told lines
  | .heard line =>
      said = told lines ∧ ∃ rest, Talk stdin lines rest ∧ fgets maxMsgLen rest = (some line, left)
  | .said line ok =>
      Talk stdin lines left ∧ ∃ before buf, lines = before ++ [line] ∧ spokenFor line = some buf ∧
        said = told before ++ [(buf, ok)]
  | .parting _ toldQuit =>
      ∃ rest quits, Talk stdin lines rest ∧
        (∀ line, (fgets maxMsgLen rest).1 = some line → (Phase.commandOf line).type = .quit) ∧
        said = told lines ++ quits ∧ quits.map Prod.fst = List.replicate toldQuit.toNat protoQuit

/-- What the input loop has said: what the lines stand for, of which all but the last have been
    sent for sure, and its own `QUIT`, if it has come to that: then `/quit` or the end of the input
    is next. -/
def Parts (stdin : Bytes) (toldQuit : Bool) (said : List (Bytes × Bool)) : Prop :=
  ∃ lines rest cmds quits, Talk stdin lines rest ∧ said = cmds ++ quits ∧
    cmds.map Prod.fst = spoken lines ∧ (∀ p ∈ cmds.dropLast, p.2 = true) ∧
    quits.map Prod.fst = List.replicate toldQuit.toNat protoQuit ∧
    (toldQuit = true → ∀ line, (fgets maxMsgLen rest).1 = some line →
      (Phase.commandOf line).type = .quit)

theorem told_snd {lines : List Bytes} {p : Bytes × Bool} (h : p ∈ told lines) : p.2 = true := by
  obtain ⟨buf, -, rfl⟩ := List.mem_map.1 h
  rfl

theorem told_fst (lines : List Bytes) : (told lines).map Prod.fst = spoken lines := by
  rw [told, List.map_map]
  exact List.map_id _

theorem told_snoc {lines : List Bytes} {line buf : Bytes} (h : spokenFor line = some buf) :
    told (lines ++ [line]) = told lines ++ [(buf, true)] := by
  simp [told, spoken, h]

theorem told_silent {lines : List Bytes} {line : Bytes} (h : spokenFor line = none) :
    told (lines ++ [line]) = told lines := by
  simp [told, spoken, h]

theorem Talk.snoc {stdin rest left line : Bytes} {lines : List Bytes} (h : Talk stdin lines rest)
    (hline : fgets maxMsgLen rest = (some line, left))
    (hquit : (Phase.commandOf line).type ≠ .quit) : Talk stdin (lines ++ [line]) left where
  cuts := h.cuts.snoc hline
  quit line' hline' := by
    rcases List.mem_append.1 hline' with h' | h'
    · exact h.quit line' h'
    · rw [List.mem_singleton.1 h']
      exact hquit

/-- The input loop has said `QUIT`. -/
def Speech.toldQuit : Speech → Bool
  | .parting _ toldQuit => toldQuit
  | _ => false

theorem Speech.Post.toldQuit {g : Speech} {r : ClientResult} (h : Speech.Post g (some r)) :
    g.toldQuit = decide (r = .quit) := by
  cases h <;> rfl

/-- What the loop has said so far, taken apart. -/
theorem Speech.Tracks.parts {stdin left : Bytes} {lines : List Bytes} {said : List (Bytes × Bool)}
    {g : Speech} (h : g.Tracks stdin lines left said) : Parts stdin g.toldQuit said := by
  have hsent : ∀ p ∈ (told lines).dropLast, p.2 = true :=
    fun p hp => told_snd (List.dropLast_subset _ hp)
  cases g with
  | idle =>
    obtain ⟨htalk, rfl⟩ := h
    refine ⟨lines, left, told lines, [], htalk, (List.append_nil _).symm, told_fst lines, hsent, rfl,
      ?_⟩
    exact fun hquit => nomatch hquit
  | heard line =>
    obtain ⟨rfl, rest, htalk, -⟩ := h
    refine ⟨lines, rest, told lines, [], htalk, (List.append_nil _).symm, told_fst lines, hsent, rfl,
      ?_⟩
    exact fun hquit => nomatch hquit
  | said line ok =>
    obtain ⟨htalk, before, buf, rfl, hspoken, rfl⟩ := h
    refine ⟨before ++ [line], left, told before ++ [(buf, ok)], [], htalk,
      (List.append_nil _).symm, ?_, ?_, rfl, ?_⟩
    · rw [List.map_append, told_fst]
      simp [spoken, hspoken]
    · rw [List.dropLast_concat]
      exact fun p => told_snd
    · exact fun hquit => nomatch hquit
  | parting stopped toldQuit =>
    obtain ⟨rest, quits, htalk, hnext, rfl, hquits⟩ := h
    exact ⟨lines, rest, told lines, quits, htalk, rfl, told_fst lines, hsent, hquits, fun _ => hnext⟩

namespace Client

variable {argv : List Bytes} {stdin : Bytes} {eof : Bool} {network : List Recv} {closes : Bool}
  {s s' : Client}

/-- What has been sent, and what the code that is left makes of it. -/
def Speaks (argv : List Bytes) (stdin : Bytes) (s : Client) : Prop :=
  match s.pc with
  | .starting code =>
      s.console.code = inputLoop ∧ s.console.stdin = stdin ∧ (∀ r, .returned r ∉ s.log) ∧
        ∃ g, (sayingOnce (protoRegister (argv.headD []))).Safe Introduced g code ∧
          sends s.log = utterance (protoRegister (argv.headD [])) g
  | .looping =>
      (∀ r, .returned r ∉ s.log) ∧ ∃ g lines said, Speech.monitor.Safe Speech.Post g s.console.code ∧
        g.Tracks stdin lines s.console.stdin said ∧
        sends s.log = (protoRegister (argv.headD []), true) :: said
  | .leaving code =>
      ∃ g said, (sayingOnce protoQuit).Safe (fun g _ => g.isSome = true) g code ∧
        Parts stdin (decide (.returned .quit ∈ s.log)) said ∧
        sends s.log = (protoRegister (argv.headD []), true) :: said ++ utterance protoQuit g
  | .exited true =>
      ∃ g said, g.isSome = true ∧ Parts stdin (decide (.returned .quit ∈ s.log)) said ∧
        sends s.log = (protoRegister (argv.headD []), true) :: said ++ utterance protoQuit g
  | .exited false => ∃ g, sends s.log = utterance (protoRegister (argv.headD [])) g

/-- An entry that sends nothing and ends nothing. -/
theorem sends_record {a : Act} (hsent : ∀ buf ok, a ≠ .sent buf ok)
    (hreturned : ∀ r, a ≠ .returned r) :
    sends (s.record a).log = sends s.log ∧
      ∀ r, .returned r ∈ (s.record a).log ↔ .returned r ∈ s.log := by
  constructor
  · show sends (s.log ++ [a]) = _
    rw [sends_append]
    cases a with
    | sent buf ok => exact absurd rfl (hsent buf ok)
    | _ => exact List.append_nil _
  · intro r
    simp [record, Ne.symm (hreturned r)]

/-- An operation of `main` says what the monitor allows. -/
theorem perform_says {word : Bytes} {g : Option Bool} {before : List (Bytes × Bool)} {ok : Bool}
    {fd : Nat} {o : MainOp} {r : o.Resp} (hp : s.perform ok fd o = some (r, s'))
    (hallowed : (sayingOnce word).allows g o) (hsends : sends s.log = before ++ utterance word g) :
    sends s'.log = before ++ utterance word ((sayingOnce word).next g o r) ∧
      ∀ r, .returned r ∈ s'.log ↔ .returned r ∈ s.log := by
  have hsilent : ∀ a : Act, (∀ buf ok, a ≠ .sent buf ok) → (∀ r, a ≠ .returned r) →
      sends (s.record a).log = before ++ utterance word g ∧
        ∀ r, .returned r ∈ (s.record a).log ↔ .returned r ∈ s.log := by
    intro a hsent hreturned
    rw [← hsends]
    exact sends_record hsent hreturned
  cases o with
  | send buf =>
    cases hp
    obtain ⟨rfl, rfl⟩ := hallowed buf rfl
    constructor
    · show sends (s.log ++ [.sent buf ok]) = _
      rw [sends_append, hsends, List.append_assoc]
      rfl
    · intro r
      simp [record]
  | mutexInit =>
    cases hp
    cases ok with
    | false => exact ⟨hsends, fun _ => Iff.rfl⟩
    | true => exact hsilent _ (by intros; exact Act.noConfusion) (by intros; exact Act.noConfusion)
  | socket =>
    cases ok with
    | false =>
      cases hp
      exact ⟨hsends, fun _ => Iff.rfl⟩
    | true =>
      cases hp
      exact hsilent .opened (by intros; exact Act.noConfusion) (by intros; exact Act.noConfusion)
  | create =>
    cases hp
    cases ok <;> exact ⟨hsends, fun _ => Iff.rfl⟩
  | join =>
    rw [perform] at hp
    split at hp
    · cases hp
      exact ⟨hsends, fun _ => Iff.rfl⟩
    · cases hp
  | inetPton | welcome | sockfd | forget =>
    cases hp
    exact ⟨hsends, fun _ => Iff.rfl⟩
  | recvLine =>
    obtain ⟨r, rest, -, hp⟩ := receive_some hp
    cases hp
    exact hsilent .touched (by intros; exact Act.noConfusion) (by intros; exact Act.noConfusion)
  | connect | mutexDestroy | close | store =>
    cases hp
    exact hsilent _ (by intros; exact Act.noConfusion) (by intros; exact Act.noConfusion)

/-- One operation of the input loop. -/
theorem speaks_input {g : Speech} {lines : List Bytes} {said : List (Bytes × Bool)} {ok : Bool}
    {o : InputOp} (hallowed : Speech.Allows g o)
    (htracks : g.Tracks stdin lines s.console.stdin said) :
    ∃ lines' said', (g.next o (s.console.perform ok o).1).Tracks stdin lines'
        (s.console.perform ok o).2.stdin said' ∧
      said' = said ++ sends (inputAct ok o).toList := by
  cases hallowed with
  | running g =>
    refine ⟨lines, said, ?_, (List.append_nil _).symm⟩
    cases g <;> exact htracks
  | print g ps =>
    refine ⟨lines, said, ?_, (List.append_nil _).symm⟩
    rw [Console.perform, Console.note_eq]
    cases g <;> exact htracks
  | fgets =>
    obtain ⟨htalk, rfl⟩ := htracks
    refine ⟨lines, told lines, ?_, (List.append_nil _).symm⟩
    rw [Console.perform]
    cases hline : (fgets maxMsgLen s.console.stdin).1 with
    | none =>
      refine ⟨s.console.stdin, [], htalk, ?_, (List.append_nil _).symm, rfl⟩
      intro line h
      rw [hline] at h
      cases h
    | some line =>
      refine ⟨rfl, s.console.stdin, htalk, ?_⟩
      rw [← hline]
  | @send line buf hspoken =>
    obtain ⟨rfl, rest, htalk, hline⟩ := htracks
    have hquit : (Phase.commandOf line).type ≠ .quit := by
      intro hquit
      rw [spokenFor, if_pos hquit] at hspoken
      cases hspoken
    refine ⟨lines ++ [line], told lines ++ [(buf, ok)], ?_, rfl⟩
    rw [Console.perform, Console.note_eq]
    show (if _ then _ else _ : Speech).Tracks stdin _ _ _
    rw [if_neg hquit]
    exact ⟨htalk.snoc hline hquit, lines, buf, rfl, hspoken, rfl⟩
  | @sendQuit line hquit =>
    obtain ⟨rfl, rest, htalk, hline⟩ := htracks
    refine ⟨lines, told lines ++ [(protoQuit, ok)], ?_, rfl⟩
    rw [Console.perform, Console.note_eq]
    show (if _ then _ else _ : Speech).Tracks stdin _ _ _
    rw [if_pos hquit]
    refine ⟨rest, [(protoQuit, ok)], htalk, ?_, rfl, rfl⟩
    intro line' h
    rw [hline] at h
    cases h
    exact hquit
  | sendEnd =>
    obtain ⟨rest, quits, htalk, hnext, rfl, hquits⟩ := htracks
    refine ⟨lines, told lines ++ quits ++ [(protoQuit, ok)], ?_, rfl⟩
    rw [Console.perform, Console.note_eq]
    refine ⟨rest, quits ++ [(protoQuit, ok)], htalk, hnext, List.append_assoc _ _ _, ?_⟩
    rw [List.map_append, hquits]
    rfl
  | stop toldQuit =>
    obtain ⟨rest, quits, htalk, hnext, rfl, hquits⟩ := htracks
    exact ⟨lines, told lines ++ quits, ⟨rest, quits, htalk, hnext, rfl, hquits⟩,
      (List.append_nil _).symm⟩

theorem parts_nil : Parts stdin false [] := by
  refine ⟨[], stdin, [], [], ⟨.nil, List.forall_mem_nil _⟩, rfl, rfl, List.forall_mem_nil _, rfl, ?_⟩
  exact fun hquit => nomatch hquit

/-- The next pass begins behind the line. -/
theorem Speech.Tracks.pass {g : Speech} {lines : List Bytes} {left : Bytes}
    {said : List (Bytes × Bool)} (h : g.Tracks stdin lines left said) (hpost : Speech.Post g none) :
    ∃ lines', Speech.idle.Tracks stdin lines' left said := by
  cases hpost with
  | first => exact ⟨lines, h⟩
  | @silent line hquit hsilent =>
    obtain ⟨rfl, rest, htalk, hline⟩ := h
    exact ⟨lines ++ [line], htalk.snoc hline hquit, (told_silent hsilent).symm⟩
  | said line =>
    obtain ⟨htalk, before, buf, rfl, hspoken, rfl⟩ := h
    exact ⟨before ++ [line], htalk, (told_snoc hspoken).symm⟩

theorem speaks_init : Speaks argv stdin (clientSystem argv stdin eof network closes).init :=
  ⟨rfl, rfl, fun _ => List.not_mem_nil, none, safe_clientMain argv, rfl⟩

/-- What the other thread does is not heard. -/
theorem Speaks.congr (h : Speaks argv stdin s) (hpc : s'.pc = s.pc)
    (hcode : s'.console.code = s.console.code) (hstdin : s'.console.stdin = s.console.stdin)
    (hsends : sends s'.log = sends s.log)
    (hreturned : ∀ r, .returned r ∈ s'.log ↔ .returned r ∈ s.log) : Speaks argv stdin s' := by
  unfold Speaks at h ⊢
  simp only [hpc, hcode, hstdin, hsends, hreturned]
  exact h

/-- The socket is open where `main` reads its descriptor. -/
theorem Holds.answers {g : Holdings} {word : Bytes} {said : Option Bool} {ok : Bool} {fd : Nat}
    {o : MainOp} {r : o.Resp} (h : Holds g s) (hallowed : g.Allows o)
    (hp : s.perform ok fd o = some (r, s')) : (sayingOnce word).answers said o r := by
  have hanswers := (h.perform hallowed hp).1
  cases o with
  | sockfd => exact hanswers hallowed
  | _ => trivial

/-- `main` comes to `input_loop`. -/
theorem Speaks.loop (h : Speaks argv stdin s) (hpc : s.pc = .starting (.ret .loop)) :
    Speaks argv stdin { s with pc := .looping } := by
  rw [Speaks, hpc] at h
  obtain ⟨hcode, hstdin, hreturned, said, hsafe, hsends⟩ := h
  obtain rfl := hsafe Started.noConfusion
  refine ⟨hreturned, .idle, [], [], ?_, ?_, hsends⟩
  · rw [hcode]
    exact Speech.safe_inputLoop
  · rw [hstdin]
    exact ⟨⟨.nil, List.forall_mem_nil _⟩, rfl⟩

/-- `main` leaves without a thread. -/
theorem Speaks.noThread (h : Speaks argv stdin s) (hpc : s.pc = .starting (.ret .noThread)) :
    Speaks argv stdin { s with pc := .leaving clientDisconnect } := by
  rw [Speaks, hpc] at h
  obtain ⟨-, -, hreturned, said, hsafe, hsends⟩ := h
  obtain rfl := hsafe Started.noConfusion
  refine ⟨none, [], safe_clientDisconnect, ?_, hsends⟩
  dsimp only
  rw [decide_eq_false (hreturned .quit)]
  exact parts_nil

/-- An operation of `main` in front of the input loop. -/
theorem Speaks.start {g : Holdings} {ok : Bool} {fd : Nat} {o : MainOp}
    {k : o.Resp → MainProg Started} {r : o.Resp} (h : Speaks argv stdin s) (hg : Holds g s)
    (hallowed : g.Allows o) (hpc : s.pc = .starting (.call o k))
    (hp : s.perform ok fd o = some (r, s')) :
    Speaks argv stdin { s' with pc := .starting (k r) } := by
  rw [Speaks, hpc] at h
  obtain ⟨hcode, hstdin, hreturned, said, hsafe, hsends⟩ := h
  have hanswers : (sayingOnce (protoRegister (argv.headD []))).answers said _ _ :=
    hg.answers hallowed hp
  rw [← List.nil_append (utterance _ _)] at hsends
  obtain ⟨hsends', hreturned'⟩ := perform_says hp hsafe.1 hsends
  have hconsole := (perform_console hp).1
  refine ⟨?_, ?_, ?_, _, hsafe.2 _ hanswers, hsends'⟩
  · rw [← hcode, ← hconsole]
  · rw [← hstdin, ← hconsole]
  · exact fun r hr => hreturned r ((hreturned' r).1 hr)

/-- `input_loop` returns. -/
theorem Speaks.returned {r : ClientResult} (h : Speaks argv stdin s) (hpc : s.pc = .looping)
    (hr : s.console.code = .ret (some r)) :
    Speaks argv stdin ({ s with pc := .leaving clientLeave }.record (.returned r)) := by
  rw [Speaks, hpc] at h
  obtain ⟨hreturned, speech, lines, said, hsafe, htracks, hsends⟩ := h
  rw [hr] at hsafe
  refine ⟨none, said, safe_clientLeave, ?_, ?_⟩
  · have hlog : (Act.returned .quit ∈ s.log ++ [.returned r]) = (r = .quit) := by
      simp [hreturned, eq_comm]
    show Parts stdin (decide (Act.returned .quit ∈ s.log ++ [.returned r])) said
    have hparts := htracks.parts
    rw [Speech.Post.toldQuit hsafe] at hparts
    simp only [hlog]
    exact hparts
  · show sends (s.log ++ [.returned r]) = _
    rw [sends_append, hsends]
    rfl

/-- The input loop begins another pass. -/
theorem Speaks.pass (h : Speaks argv stdin s) (hpc : s.pc = .looping)
    (hcode : s.console.code = .ret none) :
    Speaks argv stdin { s with console := { s.console with code := inputTurn } } := by
  rw [Speaks, hpc] at h
  obtain ⟨hreturned, speech, lines, said, hsafe, htracks, hsends⟩ := h
  rw [hcode] at hsafe
  obtain ⟨lines', hnext⟩ := Speech.Tracks.pass htracks hsafe
  unfold Speaks
  rw [hpc]
  exact ⟨hreturned, .idle, lines', said, Speech.safe_inputTurn, hnext, hsends⟩

/-- An operation of the input loop. -/
theorem Speaks.input {ok : Bool} {o : InputOp} {k : o.Resp → InputProg (Option ClientResult)}
    (h : Speaks argv stdin s) (hpc : s.pc = .looping) (hcode : s.console.code = .call o k) :
    Speaks argv stdin
      { s with
        console := { (s.console.perform ok o).2 with code := k (s.console.perform ok o).1 }
        log := s.log ++ (inputAct ok o).toList } := by
  rw [Speaks, hpc] at h
  obtain ⟨hreturned, speech, lines, said, hsafe, htracks, hsends⟩ := h
  rw [hcode] at hsafe
  obtain ⟨lines', said', hnext, rfl⟩ := @speaks_input _ _ _ _ _ ok _ hsafe.1 htracks
  unfold Speaks
  dsimp only
  rw [hpc]
  refine ⟨fun r hr => ?_, _, lines', _, hsafe.2 _ trivial, hnext, ?_⟩
  · rcases List.mem_append.1 hr with hr | hr
    · exact hreturned r hr
    · cases o <;> simp [inputAct] at hr
  · rw [sends_append, hsends]
    rfl

/-- An operation of `main` behind the input loop. -/
theorem Speaks.leave {g : Holdings} {ok : Bool} {fd : Nat} {o : MainOp}
    {k : o.Resp → MainProg Unit} {r : o.Resp} (h : Speaks argv stdin s) (hg : Holds g s)
    (hallowed : g.Allows o) (hpc : s.pc = .leaving (.call o k))
    (hp : s.perform ok fd o = some (r, s')) :
    Speaks argv stdin { s' with pc := .leaving (k r) } := by
  rw [Speaks, hpc] at h
  obtain ⟨said, talk, hsafe, hover, hsends⟩ := h
  have hanswers : (sayingOnce protoQuit).answers said _ _ := hg.answers hallowed hp
  obtain ⟨hsends', hreturned'⟩ := perform_says hp hsafe.1 hsends
  refine ⟨_, talk, hsafe.2 _ hanswers, ?_, hsends'⟩
  dsimp only
  simp only [hreturned']
  exact hover

/-- An operation of the receiver thread. -/
theorem Speaks.hear {o : ReceiverOp} {k : ReceiverPc} {r : o.Resp} (h : Speaks argv stdin s)
    (hp : s.hear o = some (r, s')) : Speaks argv stdin { s' with receiver := k } := by
  obtain ⟨hconsole, hpc, -⟩ := hear_console hp
  have hlog : sends s'.log = sends s.log ∧ ∀ r, .returned r ∈ s'.log ↔ .returned r ∈ s.log := by
    cases o with
    | running =>
      cases hp
      exact ⟨rfl, fun _ => Iff.rfl⟩
    | recvLine =>
      obtain ⟨r, rest, -, hp⟩ := receive_some hp
      cases hp
      exact sends_record (a := .touched) (by intros; exact Act.noConfusion)
        (by intros; exact Act.noConfusion)
    | shows e =>
      cases hp
      exact sends_record (a := .showed e) (by intros; exact Act.noConfusion)
        (by intros; exact Act.noConfusion)
  apply h.congr hpc _ _ hlog.1 hlog.2
  · rw [← hconsole]
  · rw [← hconsole]

theorem speaks_step {g : Holdings} {l : ClientLabel} (hs : Step s l s') (hg : Holds g s)
    (hcourse : OnCourse g s.pc) (h : Speaks argv stdin s) : Speaks argv stdin s' := by
  cases hs with
  | failure hpc =>
    rw [Speaks, hpc] at h
    obtain ⟨-, -, -, said, -, hsends⟩ := h
    exact ⟨said, hsends⟩
  | loop hpc => exact h.loop hpc
  | noThread hpc => exact h.noThread hpc
  | start hpc hp =>
    rw [hpc] at hcourse
    exact h.start hg hcourse.1 hpc hp
  | returned hpc hr => exact h.returned hpc hr
  | pass hpc hcode => exact h.pass hpc hcode
  | input hpc hcode => exact h.input hpc hcode
  | exit hpc =>
    rw [Speaks, hpc] at h
    obtain ⟨said, talk, hsafe, hover, hsends⟩ := h
    exact ⟨said, talk, hsafe, hover, hsends⟩
  | leave hpc hp =>
    rw [hpc] at hcourse
    exact h.leave hg hcourse.1 hpc hp
  | hear hr hp => exact h.hear hp
  | again hr | ended hr | stop hr => exact h.congr rfl rfl rfl rfl fun _ => Iff.rfl

/-- Wherever the process stands, what it has sent falls into the same parts. -/
theorem Speaks.sends_eq (hspeaks : Speaks argv stdin s) :
    sends s.log = [] ∨ ∃ ok said toldQuit last,
      sends s.log = (protoRegister (argv.headD []), ok) :: said ++ utterance protoQuit last ∧
      Parts stdin toldQuit said ∧ (ok = false → said = [] ∧ last = none) ∧
      (s.pc = .exited true →
        last.isSome = true ∧ toldQuit = decide (.returned .quit ∈ s.log)) := by
  unfold Speaks at hspeaks
  cases hpc : s.pc with
  | starting code =>
    rw [hpc] at hspeaks
    obtain ⟨-, -, -, g, -, hsends⟩ := hspeaks
    cases g with
    | none => exact .inl hsends
    | some ok =>
      refine .inr ⟨ok, [], false, none, hsends, parts_nil, fun _ => ⟨rfl, rfl⟩, ?_⟩
      exact fun h => ClientPc.noConfusion h
  | looping =>
    rw [hpc] at hspeaks
    obtain ⟨-, g, lines, said, -, htracks, hsends⟩ := hspeaks
    refine .inr ⟨true, said, g.toldQuit, none, ?_, htracks.parts, Bool.noConfusion, ?_⟩
    · rw [hsends]
      exact (List.append_nil _).symm
    · exact fun h => ClientPc.noConfusion h
  | leaving code =>
    rw [hpc] at hspeaks
    obtain ⟨last, said, -, hparts, hsends⟩ := hspeaks
    exact .inr ⟨true, said, _, last, hsends, hparts, Bool.noConfusion, fun h => ClientPc.noConfusion h⟩
  | exited success =>
    rw [hpc] at hspeaks
    cases success with
    | true =>
      obtain ⟨last, said, hlast, hparts, hsends⟩ := hspeaks
      exact .inr ⟨true, said, _, last, hsends, hparts, Bool.noConfusion, fun _ => ⟨hlast, rfl⟩⟩
    | false =>
      obtain ⟨g, hsends⟩ := hspeaks
      cases g with
      | none => exact .inl hsends
      | some ok =>
        refine .inr ⟨ok, [], false, none, hsends, parts_nil, fun _ => ⟨rfl, rfl⟩, ?_⟩
        intro h
        cases h

theorem speaks_reach (h : (clientSystem argv stdin eof network closes).Reach s) : Speaks argv stdin s := by
  apply System.Reach.invariant speaks_init _ h
  intro s l s' hreach hs hstep
  obtain ⟨g, hg, hcourse⟩ := holds_reach hreach
  exact speaks_step (step_cases hstep) hg hcourse hs

/-- What the process says: `REGISTER` with its first argument; then, if that could be sent, what the
    typed lines stand for, in their order, up to the first `/quit` or the end of the input, for
    which the input loop says `QUIT`; and one `QUIT` more at its end, which every process says that
    returns `EXIT_SUCCESS`. -/
theorem client_speaks (h : (clientSystem argv stdin eof network closes).Reach s) :
    sends s.log = [] ∨ ∃ ok said toldQuit last,
      sends s.log = (protoRegister (argv.headD []), ok) :: said ++ utterance protoQuit last ∧
      Parts stdin toldQuit said ∧ (ok = false → said = [] ∧ last = none) ∧
      (s.pc = .exited true →
        last.isSome = true ∧ toldQuit = decide (.returned .quit ∈ s.log)) :=
  (speaks_reach h).sends_eq

theorem client_speaks_session :
    ∃ s, session.Reach s ∧ sends s.log =
        [(ascii "REGISTER|ana\n", true), (ascii "STATUS|OCUPADO\n", true), (ascii "QUIT\n", true),
          (ascii "QUIT\n", true)] ∧
      ∃ ok said toldQuit last, sends s.log = (protoRegister (ascii "ana"), ok) :: said ++
        utterance protoQuit last ∧ Parts (ascii "/status ocupado\n/quit\n") toldQuit said := by
  obtain ⟨s, hs, hp⟩ := System.exists_reach_of_run (S := session) (sessionQuit ++ sessionRest)
    (fun s => decide (sends s.log = [(ascii "REGISTER|ana\n", true),
      (ascii "STATUS|OCUPADO\n", true), (ascii "QUIT\n", true), (ascii "QUIT\n", true)]))
    (by decide +kernel)
  have hsends := of_decide_eq_true hp
  refine ⟨s, hs, hsends, ?_⟩
  rcases client_speaks hs with hnone | ⟨ok, said, toldQuit, last, hall, hparts, -⟩
  · rw [hsends] at hnone
    cases hnone
  · exact ⟨ok, said, toldQuit, last, hall, hparts⟩

end Client

end ChatMultithread
