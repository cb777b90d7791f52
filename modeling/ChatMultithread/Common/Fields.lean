import ChatMultithread.Common.Parser
import ChatMultithread.Lib.Escaping

/-!
# What the parser reads in a line

`parse_message` reads the escaped, separated fields of a line: `parseMessage_eq` says so for
every line that fits the server's buffer. Two or fewer separators give a command; a third one
makes the parser write behind its array.
-/

namespace ChatMultithread

open Lib

/-- The bytes with a meaning of their own in a line for the server. -/
def marks : Marks UInt8 where
  terminator := msgTerminatorChar
  escape := escapeChar
  separator := fieldSepChar

@[simp] theorem marks_terminator : marks.terminator = msgTerminatorChar := rfl
@[simp] theorem marks_escape : marks.escape = escapeChar := rfl
@[simp] theorem marks_separator : marks.separator = fieldSepChar := rfl

/-- The fields of a line, before their escapes are decoded. -/
def rawFields (line : Bytes) : List (Token UInt8) × List (List (Token UInt8)) :=
  fields (tokens marks line)

/-- Field `k` of a line, before its escapes are decoded. Missing fields are empty. -/
def rawField (line : Bytes) : Nat → List (Token UInt8)
  | 0 => (rawFields line).1
  | k + 1 => (rawFields line).2.getD k []

/-- Field `k` of a line. -/
def field (line : Bytes) (k : Nat) : Bytes := text unescape (rawField line k)

/-- The line has no more fields than the parser has room for. -/
def InBounds (line : Bytes) : Prop := (rawFields line).2.length < 3

instance (line : Bytes) : Decidable (InBounds line) :=
  inferInstanceAs (Decidable (_ < _))

/-- The command a line spells. -/
def lineCommand (line : Bytes) : CommandType := commandType (field line 0)

/-- The message a line stands for. -/
def lineMessage (line : Bytes) : ParsedMessage where
  type := lineCommand line
  arg1 := field line 1
  arg2 := field line 2
  raw := line

theorem lineMessage_type (line : Bytes) : (lineMessage line).type = lineCommand line := rfl

/-- The arguments of a line are its fields behind the first, as far as there are any. -/
theorem field_succ (line : Bytes) (k : Nat) :
    field line (k + 1) = ((rawFields line).2.map (text unescape)).getD k [] := by
  rw [field, rawField, List.getD_eq_getElem?_getD, List.getD_eq_getElem?_getD, List.getElem?_map]
  cases (rawFields line).2[k]? <;> rfl

/-- The fields of a line with a plain word and one plain argument. -/
theorem rawFields_one {word arg : Bytes} (hword : ∀ b ∈ word, marks.Plain b)
    (harg : ∀ b ∈ arg, marks.Plain b) :
    rawFields (word ++ fieldSepChar :: arg ++ [msgTerminatorChar]) =
      (word.map .plain, [arg.map .plain]) := by
  have hline : word ++ fieldSepChar :: arg ++ [msgTerminatorChar] =
      word ++ (marks.separator :: (arg ++ [marks.terminator])) := by simp
  rw [hline, rawFields, tokens_append hword, tokens_separator (by decide), tokens_append harg,
    tokens_terminator, fields_map_plain_append, fields_separator, fields_map_plain_append,
    fields_nil]
  simp

/-- A line with one plain argument as the parser reads it. -/
theorem lineMessage_one {word arg : Bytes} (hword : ∀ b ∈ word, marks.Plain b)
    (harg : ∀ b ∈ arg, marks.Plain b) :
    let line := word ++ fieldSepChar :: arg ++ [msgTerminatorChar]
    InBounds line ∧ lineMessage line = ⟨commandType word, arg, [], line⟩ := by
  have hraw := rawFields_one hword harg
  constructor
  · rw [InBounds, hraw]
    exact show 1 < 3 by decide
  · simp only [lineMessage, lineCommand, field, rawField, hraw, List.getD_cons_zero,
      List.getD_cons_succ, text_map_plain]
    rfl

/-! ## The scan -/

/-- The rows of the array after the rest of a line with the given fields has been read into row
    `f` and those behind it. -/
def filled (rows : Fin 3 → Bytes) (f : Nat)
    (fs : List (Token UInt8) × List (List (Token UInt8))) (k : Fin 3) : Bytes :=
  if k.val < f then rows k
  else if k.val = f then rows k ++ text unescape fs.1
  else text unescape (fs.2.getD (k.val - f - 1) [])

/-- The indices point behind what has been written, and there is room for `n` more bytes. -/
structure Scanning (s : Scan) (n : Nat) : Prop where
  row : s.f < 3
  here : (s.fields ⟨s.f, row⟩).length = s.c
  later : ∀ k : Fin 3, s.f < k.val → s.fields k = []
  room : s.c + n < maxMsg

variable {s : Scan} {n : Nat}

theorem Scanning.terminate (h : Scanning s n) : s.terminate = some s := by
  have hc : s.c < maxMsg := Nat.lt_of_le_of_lt (Nat.le_add_right _ _) h.room
  rw [Scan.terminate, dif_pos ⟨h.row, hc⟩, List.take_of_length_le (Nat.le_of_eq h.here),
    Function.update_eq_self]

/-- Writing a byte keeps the scan in its bounds, and the byte belongs to the field being read. -/
theorem Scanning.put (h : Scanning s (n + 1)) (b : UInt8) :
    ∃ s', s.put b = some s' ∧ Scanning s' n ∧ ∀ t fs, Token.value unescape t = some b →
      filled s'.fields s'.f fs = filled s.fields s.f (t :: fs.1, fs.2) ∧ s'.f = s.f := by
  have hroom := h.room
  have hc : s.c < maxMsg := by omega
  refine ⟨_, dif_pos ⟨h.row, hc⟩, ⟨h.row, ?_, ?_, ?_⟩, fun t fs ht => ⟨?_, rfl⟩⟩
  · simp [h.here]
  · intro k hk
    have hne : k ≠ ⟨s.f, h.row⟩ := by
      rintro rfl
      exact Nat.lt_irrefl _ hk
    simpa [hne] using h.later k hk
  · show s.c + 1 + n < maxMsg
    omega
  · funext k
    have htext : text unescape (t :: fs.1) = b :: text unescape fs.1 := by
      simp [text, ht]
    unfold filled
    rcases Nat.lt_trichotomy k.val s.f with hk | hk | hk
    · have hne : k ≠ ⟨s.f, h.row⟩ := by
        rintro rfl
        exact Nat.lt_irrefl _ hk
      simp [hk, hne]
    · obtain rfl : k = ⟨s.f, h.row⟩ := Fin.ext hk
      simp [htext, h.here]
    · simp [Nat.lt_asymm hk, Nat.ne_of_gt hk]

/-- At the end of the line the rows are what they are. -/
theorem Scanning.filled_nil (h : Scanning s n) : filled s.fields s.f ([], []) = s.fields := by
  funext k
  unfold filled
  split
  · rfl
  · rename_i hlt
    split
    · simp
    · rename_i hne
      simp [h.later k (by omega)]

/-- A separator takes the scan to the next row, if there is one. -/
theorem Scanning.next (h : Scanning s (n + 1)) (hf : s.f + 1 < 3) :
    Scanning { s with f := s.f + 1, c := 0 } n where
  row := hf
  here := by rw [h.later _ (Nat.lt_succ_self _)]; rfl
  later k hk := h.later k (Nat.lt_of_succ_lt hk)
  room := by
    have := h.room
    show 0 + n < maxMsg
    omega

theorem Scanning.filled_next (h : Scanning s n)
    (fs : List (Token UInt8) × List (List (Token UInt8))) :
    filled s.fields (s.f + 1) fs = filled s.fields s.f ([], fs.1 :: fs.2) := by
  funext k
  unfold filled
  rcases Nat.lt_trichotomy k.val s.f with hk | hk | hk
  · simp [hk, Nat.lt_succ_of_lt hk]
  · simp [hk]
  · obtain ⟨j, hj⟩ := Nat.exists_eq_add_of_lt hk
    have hrow : s.fields k = [] := h.later k hk
    cases j with
    | zero =>
      have hk' : k.val = s.f + 1 := by omega
      have h1 : ¬ s.f + 1 < s.f := by omega
      simp [hk', hrow, h1]
    | succ j =>
      have h1 : ¬ k.val < s.f + 1 := by omega
      have h2 : ¬ k.val = s.f + 1 := by omega
      have h3 : ¬ k.val < s.f := by omega
      have h4 : ¬ k.val = s.f := by omega
      have h5 : k.val - s.f - 1 = (k.val - (s.f + 1) - 1) + 1 := by omega
      simp only [if_neg h1, if_neg h2, if_neg h3, if_neg h4, h5, List.getD_cons_succ]

/-- The loop fills the rows with the fields of the line, or leaves its array. -/
theorem scanLine_eq (line : Bytes) (s : Scan) (h : Scanning s line.length) :
    ((scanLine line s).bind Scan.terminate).map Scan.fields =
      if s.f + (rawFields line).2.length < 3 then some (filled s.fields s.f (rawFields line))
      else none := by
  induction line using tokens.induct (m := marks) generalizing s with
  | case1 =>
    have hend : rawFields [] = ([], []) := rfl
    simp [scanLine, hend, h.terminate, h.filled_nil, h.row]
  | case2 rest =>
    have hend : rawFields (marks.terminator :: rest) = ([], []) := by
      rw [rawFields, tokens_terminator, fields_nil]
    rw [hend, scanLine.eq_def]
    simp [h.terminate, h.filled_nil, h.row]
  | case3 hm =>
    have hend : rawFields [marks.escape] = ([], []) := by
      rw [rawFields, tokens_lone_escape hm, fields_nil]
    rw [hend, scanLine.eq_def]
    simp [h.terminate, h.filled_nil, h.row]
  | case4 e rest hm ih =>
    have hcons : rawFields (marks.escape :: e :: rest) =
        (.escaped e :: (rawFields rest).1, (rawFields rest).2) := by
      rw [rawFields, tokens_escape hm, fields_escaped, rawFields]
    have hroom : Scanning s (rest.length + 1) :=
      ⟨h.row, h.here, h.later, by have := h.room; simp only [List.length_cons] at this; omega⟩
    obtain ⟨s', hput, hs', hfill⟩ := hroom.put (unescape e)
    obtain ⟨hfilled, hrow⟩ := hfill (.escaped e) (rawFields rest) rfl
    have hscan : scanLine (marks.escape :: e :: rest) s = scanLine rest s' := by
      rw [scanLine.eq_def]
      simp [hput, show escapeChar ≠ msgTerminatorChar by decide]
    rw [hscan, ih s' hs', hcons, hfilled, hrow]
  | case5 rest hm hm' ih =>
    have hcons : rawFields (marks.separator :: rest) =
        ([], (rawFields rest).1 :: (rawFields rest).2) := by
      rw [rawFields, tokens_separator ⟨hm, hm'⟩, fields_separator, rawFields]
    have hscan : scanLine (marks.separator :: rest) s =
        if s.f + 1 ≥ 3 then some { s with f := s.f + 1, c := 0 }
        else scanLine rest { s with f := s.f + 1, c := 0 } := by
      rw [scanLine.eq_def]
      simp [h.terminate, show fieldSepChar ≠ msgTerminatorChar by decide,
        show fieldSepChar ≠ escapeChar by decide]
    rw [hscan, hcons]
    by_cases hf : s.f + 1 < 3
    · rw [if_neg (Nat.not_le.2 hf), ih _ (h.next hf), h.filled_next]
      simp only [List.length_cons, Nat.add_assoc, Nat.add_comm 1]
    · have hlast : Scan.terminate { s with f := s.f + 1, c := 0 } = none :=
        dif_neg fun hc => hf hc.1
      have hout : ¬ s.f + ((rawFields rest).1 :: (rawFields rest).2).length < 3 := by
        rw [List.length_cons]
        omega
      rw [if_pos (Nat.not_lt.1 hf), if_neg hout, Option.bind_some, hlast]
      rfl
  | case6 b rest hm hm' hm'' ih =>
    have hcons : rawFields (b :: rest) =
        (.plain b :: (rawFields rest).1, (rawFields rest).2) := by
      rw [rawFields, tokens_plain ⟨hm, hm', hm''⟩, fields_plain, rawFields]
    obtain ⟨s', hput, hs', hfill⟩ := h.put b
    obtain ⟨hfilled, hrow⟩ := hfill (.plain b) (rawFields rest) rfl
    have hc : s.c < maxMsg - 1 := by
      have := h.room
      simp only [List.length_cons, maxMsg, maxLineLen] at this ⊢
      omega
    have hscan : scanLine (b :: rest) s = scanLine rest s' := by
      rw [scanLine.eq_def]
      simp only [marks_terminator, marks_escape, marks_separator] at hm hm' hm''
      simp only [if_neg hm, if_neg hm', if_neg hm'', if_pos hc, hput, Option.bind_some]
    rw [hscan, ih s' hs', hcons, hfilled, hrow]

/-! ## The parser -/

theorem length_field_lt {line : Bytes} (h : line.length < maxMsg) (k : Nat) :
    (field line k).length ≤ maxMsg - 1 := by
  have htok := length_tokens_le (m := marks) line
  have hfields := length_field_le (tokens marks line)
  have hraw : (rawField line k).length ≤ line.length := by
    cases k with
    | zero => exact Nat.le_trans hfields.1 htok
    | succ k =>
      rw [rawField, List.getD_eq_getElem?_getD]
      cases hk : (rawFields line).2[k]? with
      | none => exact Nat.zero_le _
      | some f => exact Nat.le_trans (hfields.2 f (List.mem_of_getElem? hk)) htok
  have := Nat.le_trans (length_text_le unescape (rawField line k)) hraw
  rw [field]
  omega

/-- The parser decodes a line of at most two separators to its fields; with more separators it
    leaves its array. -/
theorem parseMessage_eq {line : Bytes} (h : line.length < maxMsg) :
    parseMessage line =
      if InBounds line then
        some (if lineCommand line = .invalid then -1 else 0, lineMessage line)
      else none := by
  have hscan := scanLine_eq line { fields := fun _ => [], f := 0, c := 0 }
    ⟨by decide, rfl, fun _ _ => rfl, by simpa using h⟩
  have hraw : strncpy (maxMsg - 1) line = line := strncpy_of_le (by omega)
  unfold parseMessage
  by_cases hin : InBounds line
  · rw [if_pos (by rw [Nat.zero_add]; exact hin)] at hscan
    obtain ⟨s', hs', hfields⟩ := Option.map_eq_some_iff.1 hscan
    obtain ⟨s₁, hs₁, hs₂⟩ := Option.bind_eq_some_iff.1 hs'
    have hrow : ∀ k : Fin 3, s'.fields k = field line k.val := by
      intro k
      rw [hfields]
      match k with
      | 0 => simp [filled, field, rawField]
      | 1 => simp [filled, field, rawField]
      | 2 => simp [filled, field, rawField]
    rw [if_pos hin, hs₁]
    simp only [Option.bind_eq_bind, Option.bind_some, hs₂, hrow, Fin.val_zero, Fin.val_one,
      Fin.val_two, hraw, strncpy_of_le (length_field_lt h _)]
    rfl
  · rw [if_neg (by rw [Nat.zero_add]; exact hin)] at hscan
    rw [if_neg hin]
    cases hs : scanLine line { fields := fun _ => [], f := 0, c := 0 } with
    | none => rfl
    | some s₁ =>
      rw [hs, Option.bind_some, Option.map_eq_none_iff] at hscan
      simp [hscan]

end ChatMultithread
