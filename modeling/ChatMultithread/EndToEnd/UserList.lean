import ChatMultithread.Client.UserList
import ChatMultithread.EndToEnd.Screens

/-!
# Who is there

The names of a room on their way to the screen of who asks for them: the server joins them into
`MAX_MSG` bytes and puts the word in front, which pushes out the end of a long list; the client
takes apart what has come.
-/

namespace ChatMultithread

open Lib ChatRoom

/-- Behind the word of `LIST_OK` there is room for this many bytes. -/
def listRoom : Nat := maxMsg - 2 - srvListOk.length

theorem listName_of_isValidUsername {u : Bytes} (h : isValidUsername u = true) : ListName u :=
  ⟨(isValidUsername_iff.1 h).1, not_mem_of_isValidUsername h (by decide) (by decide),
    not_mem_of_isValidUsername h (by decide) (by decide), (isValidUsername_iff.1 h).2.1⟩

/-- Whether the newline has come or was pushed out, what is copied is the string in front of it. -/
theorem copyField_listOk {w rest : Bytes} {m : Nat} (hw : msgTerminatorChar ∉ w)
    (hm : m ≤ maxMsgLen - 1) (hrest : rest = (w ++ ([] ++ [msgTerminatorChar])).take m ∨
      (w ++ ([] ++ [msgTerminatorChar])).take m = rest ++ [msgTerminatorChar]) :
    copyField maxMsgLen rest = w.take m := by
  have hshort : (w.take m).length ≤ maxMsgLen - 1 := Nat.le_trans (List.length_take_le m w) hm
  have hfree : msgTerminatorChar ∉ w.take m := fun hmem => hw (List.mem_of_mem_take hmem)
  rw [List.nil_append] at hrest
  by_cases hlt : w.length < m
  · rw [List.take_of_length_le (List.length_append ▸ hlt)] at hrest
    rw [List.take_of_length_le (Nat.le_of_lt hlt)] at hshort hfree ⊢
    rcases hrest with rfl | hrest
    · have hlen : (w ++ [msgTerminatorChar]).length ≤ maxMsgLen - 1 :=
        Nat.le_trans (List.length_append ▸ hlt) hm
      rw [copyField, strncpy_of_le hlen, strcspnCut_append hw]
    · rw [← List.append_cancel_right hrest]
      exact copyField_of_lt hshort hfree
  · have hcut : (w ++ [msgTerminatorChar]).take m = w.take m :=
      List.take_append_of_le_length (Nat.le_of_not_lt hlt)
    rw [hcut] at hrest
    rcases hrest with rfl | hrest
    · exact copyField_of_lt hshort hfree
    · exact absurd (hrest ▸ List.mem_append_right rest (List.mem_singleton_self _)) hfree

theorem plainField_snprintf {s : Bytes} (hnl : msgTerminatorChar ∉ s) (hnul : (0 : UInt8) ∉ s) :
    PlainField (snprintf maxMsg s) :=
  ⟨fun hmem => hnl (List.mem_of_mem_take hmem), fun hmem => hnul (List.mem_of_mem_take hmem),
    Nat.lt_of_le_of_lt (length_snprintf_le _ _) (by decide)⟩

/-- The client is handed the beginning of the users that the server was to list, cut twice. -/
theorem dispatchMessage_listOk {users : Bytes} (hnul : (0 : UInt8) ∉ users)
    (hnl : msgTerminatorChar ∉ users) :
    dispatchMessage (cstr (buildListOk maxMsg (snprintf maxMsg users))) =
      (.list (users.take listRoom), 0) := by
  have hplain := plainField_snprintf hnl hnul
  have hword : IsWord srvListOk := by decide
  obtain ⟨m, hm, hline⟩ := snprintf_lineOf_cons hword (snprintf maxMsg users) []
  have hroom : m = listRoom := by
    simp only [listRoom]
    omega
  obtain ⟨rest, hparse, hrest⟩ := protoParseType_prefix (show fieldSepChar ∉ srvListOk by decide)
    ((snprintf maxMsg users ++ (([] : List Bytes).flatMap (fieldSepChar :: ·) ++
      [msgTerminatorChar])).take m)
  have hshort : users.take listRoom = (snprintf maxMsg users).take m := by
    rw [snprintf, List.take_take, hroom, Nat.min_eq_left (by decide)]
  have hcopy : copyField maxMsgLen rest = users.take listRoom := by
    rw [hshort]
    exact copyField_listOk hplain.newline (hroom ▸ by decide) hrest
  have hne : ∀ word ∈ [srvDeliver, srvBroadcastFrom, srvStatusChanged], srvListOk ≠ word := by decide
  simp only [List.forall_mem_cons] at hne
  have hbuilt : buildListOk maxMsg (snprintf maxMsg users) =
      snprintf maxMsg (lineOf srvListOk [snprintf maxMsg users]) := rfl
  rw [(Built.listOk hplain).cstr_eq, dispatchMessage, hbuilt, strncpy_snprintf, hline, hparse]
  simp only [if_neg hne.1, if_neg hne.2.1, if_neg hne.2.2.1, if_true, Option.getD_some, hcopy]

/-- The names in a room, in the order of the seats. -/
def ChatRoom.nameList (r : ChatRoom) : List Bytes := r.names.map Subtype.val

namespace ChatRoom

variable {r : ChatRoom} {c : Conn}

theorem listName_of_mem_nameList {u : Bytes} (h : u ∈ r.nameList) : ListName u := by
  obtain ⟨v, -, rfl⟩ := List.mem_map.1 h
  exact listName_of_isValidUsername v.2

theorem nodup_nameList (r : ChatRoom) : r.nameList.Nodup :=
  Room.nodup_names.map Subtype.val_injective

/-- No name has a byte that no username may have. -/
theorem not_mem_joined {b : UInt8} (hb : isalnum b = false) (h95 : b ≠ 95) (h59 : b ≠ 59) :
    b ∉ joined r.nameList := by
  intro hmem
  rcases mem_intercalate hmem with hb | ⟨u, hu, hbu⟩
  · exact h59 hb
  · obtain ⟨v, -, rfl⟩ := List.mem_map.1 hu
    exact not_mem_of_isValidUsername v.2 hb h95 hbu

/-- Who asks for the list is told the names in the room. -/
theorem heard_list (timeout now : Int) {i : Slot} (hseat : r.seatOf c = some i) :
    (step timeout r (.sends c (ascii "LIST\n") now)).heard c =
      r.heard c ++ [.fields (.listOk (snprintf maxMsg (joined r.nameList)))] := by
  obtain ⟨o, ho, rfl⟩ := Room.seatOf_eq_some.1 hseat
  have hrequest : requestOf (ascii "LIST\n") = .list := by decide +kernel
  have hamend : (r.amendAt i (alive now)).seats i = some { o with info := alive now o.info } := by
    rw [Room.amendAt_seats, Function.update_self, ho]
    rfl
  simp only [step, hseat, hamend, hrequest, serve, Room.tell, Room.tellBy_heard, Room.amendAt_heard,
    Room.amendAt_names, if_true, nameList]

end ChatRoom

namespace Server

variable {x : Externs} {s : Server} {c : Conn}

/-- A user who asks who is there sees the names in the room, each once and in the order of the
    seats: all of them if there is room, and otherwise as many as the server's buffer holds behind
    its word. -/
theorem list_shows_room (hx : x.Manages) (timeout now : Int) (happenings : List Happening)
    (h : Serves x (serverInit timeout) (happenings ++ [.sends c (ascii "LIST\n") now]) s)
    {i : Slot} (hseat : (happenings.foldl (ChatRoom.step timeout) Room.empty).seatOf c = some i) :
    ∃ before frame raw, receivedBy c s.log = before ++ [frame] ∧
      (∀ more, clientRecvLine maxMsgLen (bytesIn frame ++ more) = .line frame more) ∧
      dispatchMessage (cstr frame) = (.list raw, 0) ∧
      (happenings.foldl (ChatRoom.step timeout) Room.empty).nameList.Nodup ∧
      ListsWithin listRoom (happenings.foldl (ChatRoom.step timeout) Room.empty).nameList
        (uiPrintList raw) := by
  generalize hr : happenings.foldl (ChatRoom.step timeout) Room.empty = r at hseat
  have hheard := (waits_serves hx h).displays.heard c
  rw [List.foldl_append, List.foldl_cons, List.foldl_nil, hr, heard_list timeout now hseat,
    List.map_append, List.map_singleton] at hheard
  have hnl : msgTerminatorChar ∉ joined r.nameList :=
    not_mem_joined (by decide) (by decide) (by decide)
  have hnul : (0 : UInt8) ∉ joined r.nameList := not_mem_joined (by decide) (by decide) (by decide)
  have hbuilt : Built (buildListOk maxMsg (snprintf maxMsg (joined r.nameList))) :=
    .listOk (plainField_snprintf hnl hnul)
  exact ⟨_, _, _, hheard, fun more => clientRecvLine_frame hbuilt.isFrame more,
    dispatchMessage_listOk hnul hnl, nodup_nameList r,
    uiPrintList_take (by decide) (by decide) fun u hu => listName_of_mem_nameList hu⟩

/-- The visitor sees the own name. -/
theorem list_shows_room_visit : ∃ (s : Server) (before : List Bytes) (frame raw : Bytes),
    receivedBy 0 s.log = before ++ [frame] ∧ dispatchMessage (cstr frame) = (.list raw, 0) ∧
      (uiPrintList raw).names = [ascii "ana"] ∧ (uiPrintList raw).count = 1 := by
  obtain ⟨s, hserves⟩ := serves_visit
  have hasks : Serves managerExterns (serverInit 60) ([.arrives 0 ⟨10, 0, 0, 7⟩ 0] ++
      [.sends 0 (ascii "REGISTER|ana\n") 1] ++ [.sends 0 (ascii "LIST\n") 2]) s := hserves
  obtain ⟨before, frame, raw, hreceived, -, hdispatch, -, hlists⟩ :=
    list_shows_room managerExterns_manages 60 2 _ hasks (i := 0) (by decide +kernel)
  obtain ⟨hnames, hcount⟩ := hlists.complete (by decide +kernel)
  refine ⟨s, before, frame, raw, hreceived, hdispatch, hnames.trans ?_, hcount.trans ?_⟩
  · decide +kernel
  · decide +kernel

end Server

end ChatMultithread
