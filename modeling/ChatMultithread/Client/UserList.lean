import ChatMultithread.Client.ReceiverLoop
import ChatMultithread.Lib.Tokens

/-!
# The list of the users on the screen

`ui_print_list` of `src/client/ui.c` announces as many users as it counts separators, and one more,
and then prints a line for each token.
-/

namespace ChatMultithread

open Lib

/-- What `ui_print_list` prints: the number in its first line, and the names in the lines below. -/
structure UserList where
  count : Nat
  names : List Bytes
  deriving DecidableEq, Repr

/-- `ui_print_list()`. -/
def uiPrintList (usersRaw : Bytes) : UserList :=
  let buf := strncpy (maxMsgLen - 1) usersRaw
  { count := if buf = [] then 0 else 1 + buf.count 59
    names := (strtokLoop 59 buf.length buf).map (strcspnCut msgTerminatorChar) }

/-- A name in a list. -/
structure ListName (u : Bytes) : Prop where
  ne_nil : u ≠ []
  separator : (59 : UInt8) ∉ u
  newline : msgTerminatorChar ∉ u
  length_le : u.length ≤ maxUser

/-- What is seen of joined names of which `n` bytes have come. -/
structure ListsWithin (n : Nat) (names : List Bytes) (l : UserList) : Prop where
  /-- Whole names in their order, and behind them at most the beginning of the next one. -/
  shown : ∃ k part, l.names = names.take k ++ part ∧
    (part = [] ∨ ∃ p u, part = [p] ∧ names[k]? = some u ∧ p <+: u)
  /-- Where there is room for all of them, nothing is missing. -/
  complete : ([59].intercalate names).length ≤ n → l.names = names ∧ l.count = names.length
  /-- As many as have room at their longest are whole. -/
  first : names.take ((n + 1) / (maxUser + 1)) <+: l.names
  /-- The number is one too large where the names are cut right behind a separator. -/
  count : l.count = l.names.length +
    if (([59].intercalate names).take n).getLast? = some 59 then 1 else 0

/-- What the client prints of joined names that were cut on their way. -/
theorem uiPrintList_take {n : Nat} (hn : 0 < n) (hlen : n ≤ maxMsgLen - 1) {names : List Bytes}
    (h : ∀ u ∈ names, ListName u) :
    ListsWithin n names (uiPrintList (([59].intercalate names).take n)) := by
  have hparts : ∀ u ∈ names, u ≠ [] ∧ (59 : UInt8) ∉ u := fun u hu => ⟨(h u hu).1, (h u hu).2⟩
  have hcopy : strncpy (maxMsgLen - 1) (([59].intercalate names).take n) =
      ([59].intercalate names).take n :=
    strncpy_of_le (Nat.le_trans (List.length_take_le _ _) hlen)
  obtain ⟨k, part, hcut, hpart⟩ := cutParts_eq_take n names
  -- no name has a newline, so the cut in front of one leaves every token as it is
  have hnames : (uiPrintList (([59].intercalate names).take n)).names = cutParts n names := by
    show (strtokLoop 59 _ _).map _ = _
    rw [hcopy, strtokLoop_take_intercalate hparts (Nat.le_refl _)]
    refine (List.map_congr_left fun p hp => strcspnCut_of_not_mem ?_).trans (List.map_id _)
    rw [hcut] at hp
    rcases List.mem_append.1 hp with hp | hp
    · exact (h p (List.mem_of_mem_take hp)).newline
    · rcases hpart with rfl | ⟨p', u, rfl, hu, hbegins⟩
      · exact absurd hp List.not_mem_nil
      · rw [List.mem_singleton.1 hp]
        exact fun hmem => (h u (List.mem_of_getElem? hu)).newline (hbegins.subset hmem)
  have hcount : (uiPrintList (([59].intercalate names).take n)).count =
      (cutParts n names).length +
        if (([59].intercalate names).take n).getLast? = some 59 then 1 else 0 := by
    show (if strncpy _ _ = [] then 0 else 1 + List.count 59 (strncpy _ _)) = _
    rw [hcopy]
    by_cases hnil : names = []
    · rw [hnil, List.intercalate_nil, List.take_nil, if_pos rfl, cutParts_nil]
      rfl
    · have hne : ([59].intercalate names).take n ≠ [] :=
        take_intercalate_ne_nil (fun u hu => (hparts u hu).1) hnil hn
      rw [if_neg hne, Nat.add_comm]
      exact count_take_intercalate hparts hnil hn
  refine ⟨⟨k, part, hnames.trans hcut, hpart⟩, fun hroom => ?_, ?_, hnames ▸ hcount⟩
  · have hwhole := cutParts_of_length_le (fun u hu => (hparts u hu).1) hroom
    refine ⟨hnames.trans hwhole, ?_⟩
    rw [hcount, hwhole, List.take_of_length_le hroom, if_neg (getLast?_intercalate_ne hparts),
      Nat.add_zero]
  · rw [hnames]
    exact take_isPrefix_cutParts (fun u hu => ⟨(h u hu).ne_nil, (h u hu).length_le⟩)
      (Nat.div_mul_le_self _ _)

/-- A list that was cut behind a separator announces one user too many. -/
example : uiPrintList (ascii "ana;") = ⟨2, [ascii "ana"]⟩ := by decide +kernel

end ChatMultithread
