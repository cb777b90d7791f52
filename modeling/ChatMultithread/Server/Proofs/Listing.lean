import ChatMultithread.Server.SessionManager

/-!
# The list of the users

`sessions_list_usernames` appends one name after the other and stops at the first that does not fit.
By then `snprintf` has written the beginning of that name, so what is left in the buffer is the
whole list cut at the size of the buffer.
-/

namespace ChatMultithread

open Lib

/-- The sessions that are listed. -/
def listed (t : Sessions) (i : Slot) : Bool :=
  (t i).isActive && (t i).isRegistered && (t i).username != []

/-- The names of the listed sessions among the given ones. -/
def usernamesIn (t : Sessions) (slots : List Slot) : List Bytes :=
  (slots.filter (listed t)).map fun i => (t i).username

/-- The names of the listed sessions, in the order of their slots. -/
def usernames (t : Sessions) : List Bytes := usernamesIn t (List.finRange maxClients)

/-- Names with a `';'` between two. -/
def joined (names : List Bytes) : Bytes := [59].intercalate names

/-- What the loop writes for the names that are left: a separator in front of every one but the
    first. -/
def pieces : Bool → List Bytes → Bytes
  | _, [] => []
  | first, u :: names => (if first then [] else [59]) ++ u ++ pieces false names

theorem pieces_append (first : Bool) (names more : List Bytes) :
    pieces first (names ++ more) = pieces first names ++ pieces (first && names.isEmpty) more := by
  induction names generalizing first with
  | nil => simp [pieces]
  | cons u names ih => simp [pieces, ih]

theorem joined_eq (names : List Bytes) : joined names = pieces true names := by
  induction names with
  | nil => rfl
  | cons u names ih =>
    cases names with
    | nil => simp [joined, pieces]
    | cons v names =>
      rw [joined] at ih ⊢
      rw [List.intercalate_cons_cons, ih]
      simp [pieces]

theorem length_pieces {names : List Bytes} {n : Nat} (h : ∀ u ∈ names, u.length = n) :
    (pieces false names).length = names.length * (n + 1) := by
  induction names with
  | nil => rw [pieces, List.length_nil, List.length_nil, Nat.zero_mul]
  | cons u names ih =>
    obtain ⟨hu, hnames⟩ := List.forall_mem_cons.1 h
    rw [pieces, if_neg Bool.false_ne_true, List.length_append, List.length_append, List.length_singleton, hu,
      ih hnames, List.length_cons, Nat.succ_mul]
    omega

/-- Names of one length are joined to a multiple of that length and of the separator, less the
    separator that the first does not need. -/
theorem length_joined {names : List Bytes} {n : Nat} (h : ∀ u ∈ names, u.length = n) :
    (joined names).length = names.length * (n + 1) - 1 := by
  rw [joined_eq]
  cases names with
  | nil => rw [pieces, List.length_nil, List.length_nil, Nat.zero_mul]
  | cons u names =>
    obtain ⟨hu, hnames⟩ := List.forall_mem_cons.1 h
    rw [pieces, if_pos rfl, List.nil_append, List.length_append, hu, length_pieces hnames,
      List.length_cons, Nat.succ_mul]
    omega

/-- The list of the first few names begins the list of all. -/
theorem joined_take_isPrefix (names : List Bytes) (k : Nat) : joined (names.take k) <+: joined names := by
  have hsplit := pieces_append true (names.take k) (names.drop k)
  rw [List.take_append_drop, ← joined_eq, ← joined_eq] at hsplit
  exact ⟨_, hsplit.symm⟩

section Loop

variable (t : Sessions) {outSize : Nat}

/-- The loop writes the names that are left, up to the size of the buffer. -/
theorem listUsernamesLoop_eq (slots : List Slot) {out : Bytes} (hout : out.length < outSize)
    (first : Bool) : listUsernamesLoop t outSize slots out first =
      snprintf outSize (out ++ pieces first (usernamesIn t slots)) := by
  induction slots generalizing out first with
  | nil =>
    rw [listUsernamesLoop, usernamesIn, List.filter_nil, List.map_nil, pieces, List.append_nil,
      snprintf_of_lt hout]
  | cons i slots ih =>
    rw [listUsernamesLoop]
    by_cases hi : listed t i = true
    · have hnames : usernamesIn t (i :: slots) = (t i).username :: usernamesIn t slots := by
        rw [usernamesIn, List.filter_cons_of_pos hi, List.map_cons]
        rfl
      have hkeep : ¬ (!(t i).isActive || !(t i).isRegistered || (t i).username == []) = true := by
        intro h
        simp only [listed, Bool.and_eq_true, bne_iff_ne] at hi
        simp [hi] at h
      rw [if_neg hkeep, hnames, pieces]
      generalize hpiece : (if first = true then ([] : Bytes) else [59]) ++ (t i).username = piece
      dsimp only
      split
      · -- the name does not fit, and neither does anything behind it
        rename_i hcut
        have hroom : outSize - 1 - out.length ≤ piece.length := by omega
        have hfull : out.length ≤ outSize - 1 := by omega
        rw [snprintf, snprintf, List.take_append, List.take_of_length_le hfull,
          List.take_append_of_le_length hroom, Nat.sub_right_comm]
      · rename_i hfits
        have hnext : (out ++ piece).length < outSize := by
          rw [List.length_append]
          omega
        rw [ih hnext, List.append_assoc]
    · have hnames : usernamesIn t (i :: slots) = usernamesIn t slots := by
        rw [usernamesIn, List.filter_cons_of_neg hi]
        rfl
      have hskip : (!(t i).isActive || !(t i).isRegistered || (t i).username == []) = true := by
        simp only [listed, Bool.and_eq_true, bne_iff_ne, not_and, not_not] at hi
        cases hactive : (t i).isActive <;> cases hregistered : (t i).isRegistered <;> simp
        exact hi ⟨hactive, hregistered⟩
      rw [if_pos hskip, hnames, ih hout]

/-- The buffer holds the whole list, cut at its size. -/
theorem sessionsListUsernames_eq (hsize : 1 ≤ outSize) :
    sessionsListUsernames t outSize = snprintf outSize (joined (usernames t)) := by
  rw [sessionsListUsernames, listUsernamesLoop_eq t _ (show ([] : Bytes).length < outSize from hsize),
    List.nil_append, joined_eq]
  rfl

end Loop

/-- The buffer holds a string of whole names: the first few, and all of them if they fit. -/
structure WholeNames (t : Sessions) (outSize : Nat) (out : Bytes) : Prop where
  terminated : out.length < outSize
  whole : ∃ k ≤ (usernames t).length, out = joined ((usernames t).take k) ∧
    ((joined (usernames t)).length ≤ outSize - 1 → k = (usernames t).length)

/-- Whole names are listed exactly when all of them fit or the buffer is full behind one of
    them. -/
theorem sessionsListUsernames_whole_iff (t : Sessions) {outSize : Nat} (hsize : 1 ≤ outSize) :
    WholeNames t outSize (sessionsListUsernames t outSize) ↔
      (joined (usernames t)).length ≤ outSize - 1 ∨
        ∃ k, (joined ((usernames t).take k)).length = outSize - 1 := by
  rw [sessionsListUsernames_eq t hsize]
  constructor
  · intro h
    by_cases hfits : (joined (usernames t)).length ≤ outSize - 1
    · exact .inl hfits
    · obtain ⟨k, -, hout, -⟩ := h.whole
      refine .inr ⟨k, ?_⟩
      rw [← hout, snprintf, List.length_take]
      omega
  · intro h
    have hlen := length_snprintf_le outSize (joined (usernames t))
    refine ⟨by omega, ?_⟩
    by_cases hfits : (joined (usernames t)).length ≤ outSize - 1
    · refine ⟨(usernames t).length, Nat.le_refl _, ?_, fun _ => rfl⟩
      rw [List.take_length]
      exact List.take_of_length_le hfits
    · obtain ⟨k, hk⟩ := h.resolve_left hfits
      refine ⟨min k (usernames t).length, Nat.min_le_right _ _, ?_, fun h => absurd h hfits⟩
      have hprefix := List.prefix_iff_eq_take.1 (joined_take_isPrefix (usernames t) k)
      rw [hk] at hprefix
      rw [← List.take_eq_take_min, hprefix]
      rfl

/-- A table in which every slot has a user. -/
def fullTable (name : Slot → Bytes) : Sessions := fun i =>
  { clearSessionSlot with username := name i, isRegistered := true, isActive := true }

theorem usernames_fullTable {name : Slot → Bytes} (h : ∀ i, name i ≠ []) :
    usernames (fullTable name) = (List.finRange maxClients).map name := by
  have hlisted : ∀ i ∈ List.finRange maxClients, listed (fullTable name) i = true :=
    fun i _ => bne_iff_ne.2 (h i)
  rw [usernames, usernamesIn, List.filter_eq_self.2 hlisted]
  rfl

/-- Sixty-four users of four letters. -/
theorem sessionsListUsernames_whole_short :
    1 ≤ maxMsg ∧ WholeNames (fullTable fun _ => ascii "cami") maxMsg
      (sessionsListUsernames (fullTable fun _ => ascii "cami") maxMsg) := by
  refine ⟨by decide, (sessionsListUsernames_whole_iff _ (by decide)).2 (.inl ?_)⟩
  have hname : ascii "cami" ≠ [] := by decide
  have hfour : ∀ u ∈ (List.finRange maxClients).map fun _ => ascii "cami", u.length = 4 := by
    intro u hu
    obtain ⟨_, _, rfl⟩ := List.mem_map.1 hu
    rfl
  rw [usernames_fullTable fun _ => hname, length_joined hfour, List.length_map, List.length_finRange]
  decide

/-- Names of twenty-five letters, one for each slot. -/
def longName (i : Slot) : Bytes :=
  List.replicate 23 97 ++ [UInt8.ofNat (97 + i / 8), UInt8.ofNat (97 + i % 8)]

/-- Sixty-four users with such names: of the fortieth name nine letters are listed. -/
theorem sessionsListUsernames_long :
    ¬ ∀ (t : Sessions) (outSize : Nat), 1 ≤ outSize →
      WholeNames t outSize (sessionsListUsernames t outSize) := by
  intro h
  obtain ⟨k, hk, hout, -⟩ := (h (fullTable longName) maxMsg (by decide)).whole
  have hnames : usernames (fullTable longName) = (List.finRange maxClients).map longName :=
    usernames_fullTable fun i => by simp [longName]
  have hall : ∀ u ∈ usernames (fullTable longName), u.length = 25 := by
    rw [hnames]
    simp [longName]
  have hcount : (usernames (fullTable longName)).length = 64 := by
    rw [hnames, List.length_map, List.length_finRange]
  have hlen := congrArg List.length hout
  rw [sessionsListUsernames_eq _ (by decide), snprintf, List.length_take, length_joined hall,
    length_joined fun u hu => hall u (List.mem_of_mem_take hu), List.length_take, hcount] at hlen
  rw [hcount] at hk
  -- neither 64 names nor fewer make up the 1023 bytes of the buffer
  simp only [maxMsg, maxLineLen] at hlen
  omega

end ChatMultithread
