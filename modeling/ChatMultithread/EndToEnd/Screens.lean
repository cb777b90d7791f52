import ChatMultithread.Client.Hearing
import ChatMultithread.EndToEnd.Framing
import ChatMultithread.EndToEnd.RoomRefinement

/-!
# From the room to the screens

What the room tells a client goes through the server's builders, the log, the frames of the stream,
the client's own decoders and its receiver thread. A client that has registered shows what it was
told, message by message and in this order, as long as the fields fit its buffers and it knows the
messages; and the end of the session where there is one.
-/

namespace ChatMultithread

open Lib ChatRoom

namespace Message

/-- What the receiver thread shows of a message. It shows nothing of its own for those that come
    before it runs, and of those that nobody asks for. -/
def screen : Message → Option UiEvent
  | broadcastOk => some .broadcastOk
  | fields m => m.shown
  | welcome | pong | bye => none

/-- The receiver thread knows the message, and the fields fit the buffers of the client. -/
def Legible : Message → Prop
  | broadcastOk => True
  | fields m => m.Fits ∧ m.shown.isSome = true
  | welcome | pong | bye => False

instance : (m : Message) → Decidable m.Legible
  | broadcastOk => isTrue trivial
  | fields _ => inferInstanceAs (Decidable (_ ∧ _))
  | welcome | pong | bye => isFalse id

end Message

theorem FieldWithin.plain {n : Nat} {f : Bytes} (h : FieldWithin n f) (hn : n < 2 ^ 29) :
    PlainField f :=
  ⟨h.newline, h.nul, Nat.lt_of_le_of_lt h.length_le hn⟩

theorem ChatText.plain {t : Bytes} (h : ChatText t) : PlainField t :=
  ⟨h.newline, h.nul, Nat.lt_of_le_of_lt h.length_le (by decide)⟩

theorem ServerMessage.Fits.built {m : ServerMessage} (h : m.Fits) : Built m.encode := by
  cases m with
  | registerOk user ip => exact .registerOk (h.1.plain (by decide)) (h.2.plain (by decide))
  | error op code desc =>
    exact .error (h.1.plain (by decide)) (h.2.1.plain (by decide)) (h.2.2.plain (by decide))
  | listOk users => exact .listOk (FieldWithin.plain h (by decide))
  | infoOk user ip status =>
    exact .infoOk (h.1.plain (by decide)) (h.2.1.plain (by decide)) (h.2.2.plain (by decide))
  | statusOk status => exact .statusOk (FieldWithin.plain h (by decide))
  | statusChanged user status =>
    exact .statusChanged (h.1.plain (by decide)) (h.2.plain (by decide))
  | msgOk dst => exact .msgOk (FieldWithin.plain h (by decide))
  | deliver src msg => exact .deliver (h.1.plain (by decide)) h.2.plain
  | broadcastFrom src msg => exact .broadcastFrom (h.1.plain (by decide)) h.2.plain

namespace Message

variable {m : Message}

theorem Legible.built (h : m.Legible) : Built m.encode := by
  cases m with
  | broadcastOk => exact .broadcastOk
  | fields m => exact h.1.built
  | welcome | pong | bye => exact h.elim

/-- The receiver thread shows a legible message and goes on. -/
theorem Legible.dispatchMessage (h : m.Legible) :
    ∃ e, m.screen = some e ∧ dispatchMessage (cstr m.encode) = (e, 0) := by
  rw [h.built.cstr_eq]
  cases m with
  | broadcastOk => exact ⟨_, rfl, by decide +kernel⟩
  | fields m =>
    obtain ⟨e, he⟩ := Option.isSome_iff_exists.1 h.2
    exact ⟨e, he, h.1.dispatchMessage he⟩
  | welcome | pong | bye => exact h.elim

end Message

/-! ## The receiver loop -/

/-- Nothing more has been told, or the farewell of a server that is left comes next. -/
def Ended (rest : List Message) : Prop := rest = [] ∨ ∃ more, rest = .bye :: more

/-- What the user sees of `told`, with `rest` behind it: the messages, and then the end of the
    session, if there is a farewell or if the peer closes the connection. -/
def screens (closes : Bool) (told rest : List Message) : List UiEvent :=
  told.filterMap Message.screen ++ if closes = true ∨ rest ≠ [] then [.disconnected] else []

variable {closes : Bool}

theorem receiverLoop_ended {rest : List Message} (h : Ended rest) (fuel : Nat) :
    receiverLoop closes (fuel + 1) (bytesIn (rest.map Message.encode).flatten) =
      screens closes [] rest := by
  rcases h with rfl | ⟨more, rfl⟩
  · cases closes <;> rfl
  · have hbye : IsFrame msgTerminatorChar (maxMsgLen - 1) (Message.encode .bye) :=
      ⟨by decide, by decide, by decide, by decide⟩
    have hdispatch : dispatchMessage (cstr (Message.encode .bye)) = (.disconnected, -1) := by
      decide +kernel
    rw [List.map_cons, List.flatten_cons, receiverLoop, clientRecvLine_bytesIn, hbye.nextFrame]
    simp only [hdispatch, if_true]
    rw [screens, if_pos (.inr (List.cons_ne_nil _ _))]
    rfl

theorem receiverLoop_told {told rest : List Message} (htold : ∀ m ∈ told, m.Legible)
    (hrest : Ended rest) {fuel : Nat} (hfuel : told.length < fuel) :
    receiverLoop closes fuel (bytesIn ((told ++ rest).map Message.encode).flatten) =
      screens closes told rest := by
  induction told generalizing fuel with
  | nil =>
    obtain ⟨fuel, rfl⟩ := Nat.exists_eq_succ_of_ne_zero (Nat.ne_of_gt hfuel)
    exact receiverLoop_ended hrest fuel
  | cons m told ih =>
    obtain ⟨fuel, rfl⟩ := Nat.exists_eq_succ_of_ne_zero (Nat.ne_zero_of_lt hfuel)
    have hm := htold m List.mem_cons_self
    obtain ⟨e, he, hdispatch⟩ := hm.dispatchMessage
    have hgo : ¬ (0 : Int) = -1 := by decide
    rw [List.cons_append, List.map_cons, List.flatten_cons, receiverLoop, clientRecvLine_bytesIn,
      hm.built.isFrame.nextFrame, screens, List.filterMap_cons_some he]
    simp only [hdispatch, if_neg hgo, List.cons_append]
    rw [ih (fun m hm => htold m (List.mem_cons_of_mem _ hm)) (Nat.lt_of_succ_lt_succ hfuel),
      screens]

/-- What the client shows of a stream of messages. -/
theorem heardFrom_told {told rest : List Message} (htold : ∀ m ∈ told, m.Legible)
    (hrest : Ended rest) :
    heardFrom closes (bytesIn ((told ++ rest).map Message.encode).flatten) =
      screens closes told rest := by
  apply receiverLoop_told htold hrest
  have hframes : ∀ b ∈ told.map Message.encode, IsFrame msgTerminatorChar (maxMsgLen - 1) b := by
    intro b hb
    obtain ⟨m, hm, rfl⟩ := List.mem_map.1 hb
    exact (htold m hm).built.isFrame
  have hlen := length_le_flatten hframes
  rw [List.length_map] at hlen
  rw [bytesIn, List.length_map, List.map_append, List.flatten_append, List.length_append]
  omega

namespace Server

variable {x : Externs} {s : Server}

/-- The client's user sees what the room has told the client. What has arrived begins with the
    answers to the registration, which succeeds with the name and the address of the room; behind
    them the receiver loop shows every message with the fields that the room gave it, one after the
    other, and nothing else, unless there is a farewell or the peer closes the connection. A process
    that gets this input shows a part of it from the start, and all of it where it waits for more. -/
theorem screens_show_room (hx : x.Manages) (timeout : Int) (happenings : List Happening)
    (h : Serves x (serverInit timeout) happenings s) (c : Conn) {user ip : Bytes}
    {told rest : List Message}
    (hheard : (happenings.foldl (ChatRoom.step timeout) Room.empty).heard c =
      .welcome :: .fields (.registerOk user ip) :: (told ++ rest))
    (hfits : (ServerMessage.registerOk user ip).Fits) (htold : ∀ m ∈ told, m.Legible)
    (hrest : Ended rest) (closes : Bool) :
    ∃ replies stream, (receivedBy c s.log).flatten = replies ++ stream ∧
      (∀ u, Returns u replies (.ok ⟨user, ip, statusActive⟩)) ∧
      heardFrom closes (bytesIn stream) = screens closes told rest ∧
      ∀ argv stdin eof p,
        (clientSystem argv stdin eof (bytesIn (replies ++ stream)) closes).Reach p →
          (∀ state, .registered state ∈ p.log → state = ⟨user, ip, statusActive⟩) ∧
          shows p.log <+: screens closes told rest ∧
          (p.Listening → shows p.log = screens closes told rest) := by
  have hwelcome : IsFrame msgTerminatorChar (maxMsgLen - 1) (Message.encode .welcome) :=
    ⟨by decide, by decide, by decide, by decide⟩
  have hreply := hfits.built.isFrame
  have hreturns : ∀ u, Returns u (Message.encode .welcome ++
      (ServerMessage.registerOk user ip).encode) (.ok ⟨user, ip, statusActive⟩) := by
    intro u more
    have hregister := @clientRegister_reply clientInit u _ _ [] hwelcome (by decide +kernel) hreply
      more
    rw [List.append_nil, hfits.built.cstr_eq] at hregister
    rw [hregister]
    exact hfits.registerReply rfl
  have hscreens := @heardFrom_told closes _ _ htold hrest
  refine ⟨Message.encode .welcome ++ (ServerMessage.registerOk user ip).encode,
    ((told ++ rest).map Message.encode).flatten, ?_, hreturns, hscreens, ?_⟩
  · rw [(waits_serves hx h).displays.heard, hheard, List.map_cons, List.map_cons, List.flatten_cons,
      List.flatten_cons, List.append_assoc]
    rfl
  · intro argv stdin eof p hp
    obtain ⟨g, hg⟩ := Client.hears_reach hp
    have hbegun := hg.begun
    have hall := hg.listening
    have hbehind : behindRegister (bytesIn (Message.encode .welcome ++
        (ServerMessage.registerOk user ip).encode ++ ((told ++ rest).map Message.encode).flatten)) =
        bytesIn ((told ++ rest).map Message.encode).flatten := by
      rw [behindRegister, List.append_assoc, behindLine_frame hwelcome, behindLine_frame hreply]
    rw [hbehind, hscreens] at hbegun hall
    refine ⟨fun state hstate => ?_, hbegun, hall⟩
    have hfound := (hg.found state ((hg.registered state).1 hstate)).1
    rw [bytesIn_append, hreturns] at hfound
    exact (Except.ok.inj hfound).symm

/-- What the visitor sees while she stays, in her process, and when the server closes her
    connection. -/
theorem screens_show_room_visit :
    ∃ (s : Server) (replies stream replies' stream' : Bytes) (p : Client),
      (receivedBy 0 s.log).flatten = replies ++ stream ∧
        Returns (ascii "ana") replies (.ok ⟨ascii "ana", ascii "10.0.0.7", statusActive⟩) ∧
        heardFrom false (bytesIn stream) = [.list (ascii "ana")] ∧
        (clientSystem [ascii "ana", ascii "10.0.0.1", ascii "5000"] [] false
          (bytesIn (replies ++ stream)) false).Reach p ∧
        p.Listening ∧ shows p.log = [.list (ascii "ana")] ∧
      (receivedBy 0 s.log).flatten = replies' ++ stream' ∧
        heardFrom true (bytesIn stream') = [.list (ascii "ana"), .disconnected] := by
  obtain ⟨s, hserves⟩ := serves_visit
  have hheard : (visit.foldl (ChatRoom.step 60) Room.empty).heard 0 =
      .welcome :: .fields (.registerOk (ascii "ana") (ascii "10.0.0.7")) ::
        ([.fields (.listOk (ascii "ana"))] ++ []) := by decide +kernel
  obtain ⟨replies, stream, hstream, hreturns, hshown, hprocess⟩ :=
    screens_show_room managerExterns_manages 60 visit hserves 0 hheard (by decide) (by decide)
      (.inl rfl) false
  obtain ⟨replies', stream', hstream', -, hshown', -⟩ :=
    screens_show_room managerExterns_manages 60 visit hserves 0 hheard (by decide) (by decide)
      (.inl rfl) true
  have hbytes : replies ++ stream =
      ascii "WELCOME|CHAT/1.0\nREGISTER_OK|ana|10.0.0.7|ACTIVO\nLIST_OK|ana\n" := by
    rw [← hstream, (waits_serves managerExterns_manages hserves).displays.heard, hheard]
    decide +kernel
  obtain ⟨p, hp, hlistening⟩ := System.exists_reach_of_run (S := clientSystem
      [ascii "ana", ascii "10.0.0.1", ascii "5000"] [] false (bytesIn
        (ascii "WELCOME|CHAT/1.0\nREGISTER_OK|ana|10.0.0.7|ACTIVO\nLIST_OK|ana\n")) false)
    (List.replicate 12 (.main true 3) ++ List.replicate 5 .receiver)
    (fun p => decide p.Listening) (by decide +kernel)
  have hlistening : p.Listening := of_decide_eq_true hlistening
  rw [← hbytes] at hp
  obtain ⟨-, -, hall⟩ := hprocess _ _ _ p hp
  exact ⟨s, replies, stream, replies', stream', p, hstream, hreturns _, hshown, hp, hlistening,
    hall hlistening, hstream', hshown'⟩

end Server

end ChatMultithread
