import ChatMultithread.Client.InputLoop
import ChatMultithread.Client.Register
import ChatMultithread.Common.Validation

/-!
# The longest usernames

`validate_username` of `src/client/main_client.c` and the server's `is_valid_username` accept names
of up to `MAX_USERNAME_LEN` bytes. The client keeps a name in buffers of that size, with the
terminator in them: every one of its copies cuts a name of the greatest length.
-/

namespace ChatMultithread

open Lib

/-- The test of `validate_username` on a byte. -/
def validUsernameChar (c : UInt8) : Bool :=
  (65 ≤ c && c ≤ 90) || (97 ≤ c && c ≤ 122) || (48 ≤ c && c ≤ 57) || c == 95

/-- The loop of `validate_username`. -/
def validateUsernameLoop : Nat → Bytes → Bool
  | len, [] => 0 < len
  | len, c :: p =>
      if len ≥ maxUsernameLen then false
      else if !validUsernameChar c then false
      else validateUsernameLoop (len + 1) p

/-- `validate_username()` of the client. -/
def validateUsername (username : Bytes) : Bool :=
  if username = [] then false else validateUsernameLoop 0 username

theorem validateUsernameLoop_iff {len : Nat} (hlen : len ≤ maxUsernameLen) (p : Bytes) :
    validateUsernameLoop len p = true ↔
      0 < len + p.length ∧ len + p.length ≤ maxUsernameLen ∧
        ∀ c ∈ p, validUsernameChar c = true := by
  induction p generalizing len with
  | nil =>
    rw [validateUsernameLoop, decide_eq_true_iff]
    exact ⟨fun h => ⟨h, hlen, List.forall_mem_nil _⟩, fun h => h.1⟩
  | cons c p ih =>
    rw [validateUsernameLoop]
    by_cases hroom : len ≥ maxUsernameLen
    · rw [if_pos hroom, List.length_cons]
      refine ⟨fun h => absurd h Bool.false_ne_true, fun h => ?_⟩
      have := h.2.1
      omega
    · rw [if_neg hroom]
      by_cases hc : validUsernameChar c = true
      · have hnext := @ih (len + 1) (by omega)
        rw [hc, Bool.not_true, if_neg Bool.false_ne_true, hnext, List.length_cons,
          List.forall_mem_cons, Nat.add_assoc, Nat.add_comm 1]
        exact ⟨fun h => ⟨h.1, h.2.1, hc, h.2.2⟩, fun h => ⟨h.1, h.2.1, h.2.2.2⟩⟩
      · rw [Bool.eq_false_iff.2 hc, Bool.not_false, if_pos rfl, List.forall_mem_cons]
        exact ⟨fun h => absurd h Bool.false_ne_true, fun h => absurd h.2.2.1 (by simp [hc])⟩

/-- The client and the server accept the same names. -/
theorem validateUsername_eq (u : Bytes) : validateUsername u = isValidUsername u := by
  have hchar : ∀ c, validUsernameChar c = true ↔ isalnum c = true ∨ c = 95 := by
    intro c
    simp only [validUsernameChar, isalnum, Bool.or_eq_true, beq_iff_eq]
    tauto
  rw [Bool.eq_iff_iff, isValidUsername_iff, validateUsername]
  by_cases hu : u = []
  · rw [if_pos hu]
    exact ⟨fun h => absurd h Bool.false_ne_true, fun h => absurd hu h.1⟩
  · have hpos := List.length_pos_of_ne_nil hu
    rw [if_neg hu, validateUsernameLoop_iff (Nat.zero_le _), Nat.zero_add]
    simp only [hchar]
    exact ⟨fun h => ⟨hu, h.2⟩, fun h => ⟨hpos, h.2⟩⟩

/-- A username is stored, addressed and shown as it is: by `client_register` behind a
    `REGISTER_OK`, by the commands that name a user, and by the messages that do. -/
structure UsableEverywhere (u : Bytes) : Prop where
  registered : ∀ name b r ip more, IsFrame msgTerminatorChar (maxMsgLen - 1) b →
    (protoParseType (cstr b)).1 = srvWelcome → IsFrame msgTerminatorChar (maxMsgLen - 1) r →
    cstr r = lineOf srvRegisterOk [u, ip, statusActive] →
    ∃ state, (clientRegister clientInit name true (bytesIn (b ++ r) ++ more)).result = .ok state ∧
      state.username = u
  msgCommand : ∀ text, (parseCommand (ascii "/msg " ++ u ++ ascii " " ++ text)).arg1 = u
  infoCommand : ∀ e, FinalNewline e → (parseCommand (ascii "/info " ++ u ++ e)).arg1 = u
  deliver : ∀ m, ∃ msg, (dispatchMessage (lineOf srvDeliver [u, m])).1 = .privateIn u msg
  broadcastFrom : ∀ m, ∃ msg,
    (dispatchMessage (lineOf srvBroadcastFrom [u, m])).1 = .broadcastIn u msg
  statusChanged : ∀ s, ∃ status,
    (dispatchMessage (lineOf srvStatusChanged [u, s])).1 = .statusChanged u status
  infoOk : ∀ ip s, ∃ ip' status,
    (dispatchMessage (lineOf srvInfoOk [u, ip, s])).1 = .info u ip' status
  msgOk : (dispatchMessage (lineOf srvMsgOk [u])).1 = .msgOk u

section Copies

variable {u : Bytes} (hu : isValidUsername u = true)
include hu

/-! ## The copies of a valid name -/

theorem copyField_username : copyField maxUsernameLen u = strncpy (maxUsernameLen - 1) u := by
  have hnl : msgTerminatorChar ∉ u := not_mem_of_isValidUsername hu (by decide) (by decide)
  exact strcspnCut_of_not_mem fun hmem => hnl (List.mem_of_mem_take hmem)

/-- What stands behind the first field of a line. -/
theorem nextToken_username {tail : Bytes} (htail : tail = [] ∨ ∃ t, tail = fieldSepChar :: t) :
    (nextToken (some (u ++ tail))).1 = some u := by
  have hsep : fieldSepChar ∉ u := not_mem_of_isValidUsername hu (by decide) (by decide)
  have hne : u ≠ [] := (isValidUsername_iff.1 hu).1
  rcases htail with rfl | ⟨t, rfl⟩
  · rw [List.append_nil, nextToken, Option.bind_some, strtok_last hne hsep]
  · rw [nextToken, Option.bind_some, strtok_append hne hsep]

theorem takeField_username {tail : Bytes} (htail : tail = [] ∨ ∃ t, tail = fieldSepChar :: t) :
    (takeField maxUsernameLen (some (u ++ tail))).1 = strncpy (maxUsernameLen - 1) u := by
  have hsep : fieldSepChar ∉ u := not_mem_of_isValidUsername hu (by decide) (by decide)
  have hne : u ≠ [] := (isValidUsername_iff.1 hu).1
  rcases htail with rfl | ⟨t, rfl⟩
  · rw [List.append_nil, takeField, Option.bind_some, strtok_last hne hsep]
    exact copyField_username hu
  · rw [takeField, Option.bind_some, strtok_append hne hsep]
    exact copyField_username hu

theorem parseMsgFields_username {tail : Bytes}
    (htail : tail = [] ∨ ∃ t, tail = fieldSepChar :: t) :
    (parseMsgFields (some (u ++ tail)) maxUsernameLen maxChatLen).1 =
      strncpy (maxUsernameLen - 1) u := by
  have hsep : fieldSepChar ∉ u := not_mem_of_isValidUsername hu (by decide) (by decide)
  rcases htail with rfl | ⟨t, rfl⟩
  · simp only [parseMsgFields, List.append_nil, strchr_eq_none.2 hsep]
    exact copyField_username hu
  · simp only [parseMsgFields, strchr_append hsep]
    split
    · rename_i hlen
      rw [strncpy_of_le (Nat.le_sub_one_of_lt hlen), strncpy_of_le (Nat.le_refl _)]
      exact strcspnCut_of_not_mem (not_mem_of_isValidUsername hu (by decide) (by decide))
    · exact copyField_username hu

/-- A name in the first field is found behind the word, wherever a line is cut. -/
theorem protoParseType_username {word : Bytes} (hword : IsWord word) (args : List Bytes) :
    ∃ tail, protoParseType (strncpy (maxMsgLen - 1) (lineOf word (u :: args))) =
        (word, some (u ++ tail)) ∧ (tail = [] ∨ ∃ t, tail = fieldSepChar :: t) ∧
      (args = [] → tail = []) := by
  obtain ⟨-, hlen, -⟩ := isValidUsername_iff.1 hu
  obtain ⟨m, hm, hline⟩ := snprintf_lineOf_cons hword u args
  have hroom : u.length + 1 ≤ m := by
    have hword20 := hword.length_le
    simp only [maxMsg, maxLineLen] at hm
    omega
  obtain ⟨k, hk⟩ := Nat.exists_eq_add_of_le' (Nat.le_sub_of_add_le' hroom)
  have hcut : strncpy (maxMsgLen - 1) (lineOf word (u :: args)) = word ++ fieldSepChar ::
      (u ++ (args.flatMap (fieldSepChar :: ·) ++ [msgTerminatorChar]).take (k + 1)) := by
    rw [show strncpy (maxMsgLen - 1) (lineOf word (u :: args)) =
      snprintf maxMsg (lineOf word (u :: args)) from rfl, hline, List.take_append,
      List.take_of_length_le (by omega), hk]
  cases args with
  | nil =>
    refine ⟨[], ?_, .inl rfl, fun _ => rfl⟩
    rw [hcut, List.flatMap_nil, List.nil_append, List.take_of_length_le (by simp),
      protoParseType_cons hword.separator, List.append_nil]
  | cons a args =>
    rw [List.flatMap_cons, List.cons_append, List.cons_append, List.take_succ_cons] at hcut
    generalize (a ++ args.flatMap (fieldSepChar :: ·) ++ [msgTerminatorChar]).take k = t at hcut
    obtain ⟨rest, htype, hrest⟩ := protoParseType_prefix hword.separator (u ++ fieldSepChar :: t)
    rw [hcut, htype]
    rcases hrest with rfl | hrest
    · exact ⟨fieldSepChar :: t, rfl, .inr ⟨t, rfl⟩, fun h => by cases h⟩
    · rcases List.eq_nil_or_concat t with rfl | ⟨t, b, rfl⟩
      · exact absurd (List.append_inj_right' hrest rfl) (by decide)
      · rw [List.concat_eq_append, ← List.cons_append, ← List.append_assoc] at hrest
        obtain rfl := List.append_inj_left' hrest rfl
        exact ⟨fieldSepChar :: t, rfl, .inr ⟨t, rfl⟩, fun h => by cases h⟩

/-! ## Where the client copies a name -/

/-- `client_register` stores the name without its last byte if it has the greatest length. -/
theorem clientRegister_username (name : Bytes) {b r ip : Bytes} (more : List Recv)
    (hb : IsFrame msgTerminatorChar (maxMsgLen - 1) b)
    (htype : (protoParseType (cstr b)).1 = srvWelcome)
    (hr : IsFrame msgTerminatorChar (maxMsgLen - 1) r)
    (hline : cstr r = lineOf srvRegisterOk [u, ip, statusActive]) :
    ∃ state, (clientRegister clientInit name true (bytesIn (b ++ r) ++ more)).result = .ok state ∧
      state.username = strncpy (maxUsernameLen - 1) u := by
  obtain ⟨tail, hparse, htail, -⟩ :=
    protoParseType_username hu (show IsWord srvRegisterOk by decide) [ip, statusActive]
  have hreply := @clientRegister_reply clientInit name b r [] hb htype hr more
  rw [List.append_nil, hline, registerReply, hparse, if_pos rfl] at hreply
  refine ⟨_, hreply, ?_⟩
  simp only [registeredState, nextToken_username hu htail, Option.map_some, Option.getD_some]

/-- A valid name has neither blanks nor line ends in it. -/
theorem isBlank_username : ∀ b ∈ u, isBlank b = false ∧ isLineEnd b = false := by
  intro b hb
  have hne : ∀ c, isalnum c = false → c ≠ 95 → b ≠ c := by
    rintro c hc h95 rfl
    exact not_mem_of_isValidUsername hu hc h95 hb
  have h32 := hne 32 (by decide) (by decide)
  have h9 := hne 9 (by decide) (by decide)
  have h10 := hne 10 (by decide) (by decide)
  have h13 := hne 13 (by decide) (by decide)
  simp [isBlank, isLineEnd, h32, h9, h10, h13]

theorem head_username (rest : Bytes) : ∀ b ∈ (u ++ rest).head?, isBlank b = false := by
  rw [List.head?_append_of_ne_nil _ (isValidUsername_iff.1 hu).1]
  intro b hb
  exact (isBlank_username hu b (List.mem_of_head? hb)).1

theorem parseCommand_msg_username (text : Bytes) :
    (parseCommand (ascii "/msg " ++ u ++ ascii " " ++ text)).arg1 =
      strncpy (maxUsernameLen - 1) u := by
  have hline : ascii "/msg " ++ u ++ ascii " " ++ text =
      [] ++ ascii "/msg" ++ ([32] ++ (u ++ 32 :: text)) := by
    rw [show ascii "/msg " = ascii "/msg" ++ [32] from rfl, show ascii " " = [32] from rfl]
    simp
  have hskip := blanks_space.skipSpaces (head_username hu (32 :: text))
  have hne : u ++ 32 :: text ≠ [] := List.append_ne_nil_of_right_ne_nil _ (List.cons_ne_nil _ _)
  have htake : (u ++ 32 :: text).takeWhile (!isBlank ·) = u := by
    rw [List.takeWhile_append_of_pos fun b hb => by simp [(isBlank_username hu b hb).1]]
    simp [isBlank]
  rw [hline, parseCommand_msg (List.forall_mem_nil _) (blanks_space.wordEnd _)
    (by rw [hskip]; exact hne), hskip, parseMsgCommand, htake]
  split <;> rfl

theorem parseCommand_info_username {e : Bytes} (he : FinalNewline e) :
    (parseCommand (ascii "/info " ++ u ++ e)).arg1 = strncpy (maxUsernameLen - 1) u := by
  have hline : ascii "/info " ++ u ++ e = [] ++ ascii "/info" ++ ([32] ++ (u ++ e)) := by
    rw [show ascii "/info " = ascii "/info" ++ [32] from rfl]
    simp
  have hskip := blanks_space.skipSpaces (head_username hu e)
  have hne : u ++ e ≠ [] := List.append_ne_nil_of_left_ne_nil (isValidUsername_iff.1 hu).1 _
  have hlast : ∀ n, ∀ b ∈ (strncpy n u).getLast?, isLineEnd b = false := by
    intro n b hb
    exact (isBlank_username hu b (List.mem_of_mem_take (List.mem_of_getLast? hb))).2
  rw [hline, parseCommand_info (List.forall_mem_nil _) (blanks_space.wordEnd _)
    (by rw [hskip]; exact hne), hskip]
  rcases Nat.lt_or_ge (maxUsernameLen - 1) u.length with hlong | hshort
  · rw [show strncpy (maxUsernameLen - 1) (u ++ e) = strncpy (maxUsernameLen - 1) u from
      List.take_append_of_le_length (Nat.le_of_lt hlong), trimNewline_of_last (hlast _)]
  · have hcopy := hlast (maxUsernameLen - 1)
    rw [strncpy_of_le hshort] at hcopy
    rw [trimNewline_strncpy hshort hcopy he, strncpy_of_le hshort]

/-- The receiver thread shows the name of every message that has one in its first field, without
    its last byte if it has the greatest length. -/
theorem dispatchMessage_username :
    (∀ m, ∃ msg, (dispatchMessage (lineOf srvDeliver [u, m])).1 =
      .privateIn (strncpy (maxUsernameLen - 1) u) msg) ∧
    (∀ m, ∃ msg, (dispatchMessage (lineOf srvBroadcastFrom [u, m])).1 =
      .broadcastIn (strncpy (maxUsernameLen - 1) u) msg) ∧
    (∀ s, ∃ status, (dispatchMessage (lineOf srvStatusChanged [u, s])).1 =
      .statusChanged (strncpy (maxUsernameLen - 1) u) status) ∧
    (∀ ip s, ∃ ip' status, (dispatchMessage (lineOf srvInfoOk [u, ip, s])).1 =
      .info (strncpy (maxUsernameLen - 1) u) ip' status) ∧
    (dispatchMessage (lineOf srvMsgOk [u])).1 = .msgOk (strncpy (maxUsernameLen - 1) u) := by
  refine ⟨?_, ?_, ?_, ?_, ?_⟩
  · intro m
    obtain ⟨tail, hparse, htail, -⟩ :=
      protoParseType_username hu (show IsWord srvDeliver by decide) [m]
    refine ⟨(parseMsgFields (some (u ++ tail)) maxUsernameLen maxChatLen).2, ?_⟩
    simp only [dispatchMessage, hparse, if_true]
    rw [parseMsgFields_username hu htail]
  · intro m
    obtain ⟨tail, hparse, htail, -⟩ :=
      protoParseType_username hu (show IsWord srvBroadcastFrom by decide) [m]
    have hne : srvBroadcastFrom ≠ srvDeliver := by decide
    refine ⟨(parseMsgFields (some (u ++ tail)) maxUsernameLen maxChatLen).2, ?_⟩
    simp only [dispatchMessage, hparse, if_neg hne, if_true]
    rw [parseMsgFields_username hu htail]
  · intro s
    obtain ⟨tail, hparse, htail, -⟩ :=
      protoParseType_username hu (show IsWord srvStatusChanged by decide) [s]
    have hne : ∀ word ∈ [srvDeliver, srvBroadcastFrom], srvStatusChanged ≠ word := by decide
    simp only [List.forall_mem_cons] at hne
    refine ⟨(parseTwoFields (some (u ++ tail)) maxUsernameLen 16).2.1, ?_⟩
    simp only [dispatchMessage, hparse, hne, if_false, if_true]
    unfold parseTwoFields
    rw [takeField_username hu htail]
  · intro ip s
    obtain ⟨tail, hparse, htail, -⟩ :=
      protoParseType_username hu (show IsWord srvInfoOk by decide) [ip, s]
    have hne : ∀ word ∈ [srvDeliver, srvBroadcastFrom, srvStatusChanged, srvListOk],
        srvInfoOk ≠ word := by decide
    simp only [List.forall_mem_cons] at hne
    refine ⟨(parseThreeFields (some (u ++ tail)) maxUsernameLen 64 16).2.1,
      (parseThreeFields (some (u ++ tail)) maxUsernameLen 64 16).2.2, ?_⟩
    simp only [dispatchMessage, hparse, hne, if_false, if_true]
    unfold parseThreeFields parseTwoFields
    rw [takeField_username hu htail]
  · obtain ⟨tail, hparse, -, htail⟩ :=
      protoParseType_username hu (show IsWord srvMsgOk by decide) []
    have hne : ∀ word ∈ [srvDeliver, srvBroadcastFrom, srvStatusChanged, srvListOk, srvInfoOk,
        srvStatusOk], srvMsgOk ≠ word := by decide
    simp only [List.forall_mem_cons] at hne
    simp only [dispatchMessage, hparse, htail rfl, hne, if_false, if_true, Option.getD_some,
      List.append_nil]
    rw [copyField_username hu]

end Copies

/-- A name that one of the validators accepts is usable everywhere exactly when it is shorter than
    the greatest length they accept. -/
theorem usableEverywhere_iff {u : Bytes}
    (hu : validateUsername u = true ∨ isValidUsername u = true) :
    UsableEverywhere u ↔ u.length ≤ maxUsernameLen - 1 := by
  rw [validateUsername_eq, or_self] at hu
  constructor
  · intro h
    have hinfo := h.infoCommand [] (.inl rfl)
    rw [parseCommand_info_username hu (.inl rfl)] at hinfo
    rw [← hinfo]
    exact List.length_take_le _ _
  · intro hlen
    have hcopy : strncpy (maxUsernameLen - 1) u = u := strncpy_of_le hlen
    have hshown := dispatchMessage_username hu
    rw [hcopy] at hshown
    obtain ⟨hdeliver, hbroadcast, hstatus, hinfo, hmsg⟩ := hshown
    refine ⟨?_, ?_, ?_, hdeliver, hbroadcast, hstatus, hinfo, hmsg⟩
    · intro name b r ip more hb htype hr hline
      have hregistered := clientRegister_username hu name more hb htype hr hline
      rw [hcopy] at hregistered
      exact hregistered
    · intro text
      rw [parseCommand_msg_username hu, hcopy]
    · intro e he
      rw [parseCommand_info_username hu he, hcopy]

/-- A short name. -/
theorem usableEverywhere_ana :
    (validateUsername (ascii "ana") = true ∨ isValidUsername (ascii "ana") = true) ∧
      UsableEverywhere (ascii "ana") := by
  have hvalid : validateUsername (ascii "ana") = true ∨ isValidUsername (ascii "ana") = true :=
    .inl (by decide +kernel)
  exact ⟨hvalid, (usableEverywhere_iff hvalid).2 (by decide)⟩

/-- The name of thirty-two letters, which both validators accept. -/
theorem usableEverywhere_longest :
    ¬ ∀ u, validateUsername u = true ∨ isValidUsername u = true → UsableEverywhere u := by
  intro h
  have hvalid : validateUsername (List.replicate 32 97) = true := by decide +kernel
  have hinfo := (h _ (.inl hvalid)).infoCommand [] (.inl rfl)
  exact absurd hinfo (by decide +kernel)

end ChatMultithread
