import ChatMultithread.Common.Parser
import ChatMultithread.Lib.Framing

/-!
# What the builders write

A builder writes one frame of the stream as long as its arguments are free of newlines, whether
or not the line is cut at the end of the buffer. The builders do not look at their arguments.
-/

namespace ChatMultithread

open Lib

/-- The part of a line in front of its newline. -/
def lineBodyOf (word : Bytes) (args : List Bytes) : Bytes :=
  word ++ args.flatMap (fieldSepChar :: ·)

theorem lineOf_eq (word : Bytes) (args : List Bytes) :
    lineOf word args = lineBodyOf word args ++ [msgTerminatorChar] := rfl

theorem not_mem_lineBodyOf {word : Bytes} {args : List Bytes} {b : UInt8} (hb : b ≠ fieldSepChar)
    (hword : b ∉ word) (hargs : ∀ a ∈ args, b ∉ a) : b ∉ lineBodyOf word args := by
  rw [lineBodyOf, List.mem_append, not_or]
  refine ⟨hword, fun h => ?_⟩
  obtain ⟨a, ha, hmem⟩ := List.mem_flatMap.1 h
  rcases List.mem_cons.1 hmem with rfl | hmem
  · exact hb rfl
  · exact hargs a ha hmem

/-- A line of plain arguments, cut at the size of the buffer or not, is a frame. -/
theorem isFrame_lineOf {word : Bytes} {args : List Bytes} (hword : msgTerminatorChar ∉ word)
    (hargs : ∀ a ∈ args, msgTerminatorChar ∉ a) :
    IsFrame msgTerminatorChar (maxMsg - 1) (snprintf maxMsg (lineOf word args)) :=
  isFrame_take (by decide) (not_mem_lineBodyOf (by decide) hword hargs)

/-- The number of bytes of its text that a buffer keeps in front of the last one. -/
def textRoom (word name : Bytes) : Nat := maxMsg - 2 - (word.length + name.length + 2)

/-- An event is a frame exactly when the part of its text that is not cut away is free of
    newlines. -/
theorem isFrame_event_iff {word name text : Bytes} (hword : msgTerminatorChar ∉ word)
    (hname : msgTerminatorChar ∉ name) (hlen : word.length + name.length + 2 ≤ maxMsg - 2) :
    IsFrame msgTerminatorChar (maxMsg - 1) (snprintf maxMsg (lineOf word [name, text])) ↔
      msgTerminatorChar ∉ text.take (textRoom word name) := by
  have hsplit : lineBodyOf word [name, text] =
      (word ++ fieldSepChar :: (name ++ [fieldSepChar])) ++ text := by
    simp [lineBodyOf]
  have hpre : msgTerminatorChar ∉ word ++ fieldSepChar :: (name ++ [fieldSepChar]) := by
    simp only [List.mem_append, List.mem_cons, List.not_mem_nil, not_or, or_false]
    exact ⟨hword, by decide, hname, by decide⟩
  have hprelen : (word ++ fieldSepChar :: (name ++ [fieldSepChar])).length =
      word.length + name.length + 2 := by
    simp only [List.length_append, List.length_cons, List.length_nil]
    omega
  rw [snprintf, lineOf_eq, isFrame_take_iff (by decide), hsplit, List.take_append, hprelen,
    List.take_of_length_le (by rw [hprelen]; exact hlen), List.mem_append, not_or]
  exact and_iff_right hpre

/-- A frame holds at most one newline, as its last byte; it holds none only when it fills the
    buffer. -/
theorem newlines_of_isFrame {n : Nat} {b : Bytes} (h : IsFrame msgTerminatorChar n b) :
    b.length = n ∨ ∃ body, b = body ++ [msgTerminatorChar] ∧ msgTerminatorChar ∉ body := by
  refine h.last.imp id fun hlast => ⟨b.dropLast, ?_, h.inner⟩
  have hsplit := List.dropLast_append_getLast h.ne_nil
  rw [List.getLast?_eq_getLast_of_ne_nil h.ne_nil] at hlast
  rw [← hsplit, Option.some.inj hlast, List.dropLast_concat]

/-! ## The type of a line -/

theorem cstr_append {s : Bytes} (h : (0 : UInt8) ∉ s) (t : Bytes) :
    cstr (s ++ t) = s ++ cstr t := by
  apply List.takeWhile_append_of_pos
  intro b hb
  simpa using fun e : b = 0 => h (e ▸ hb)

/-- A word of the protocol. -/
structure IsWord (word : Bytes) : Prop where
  separator : fieldSepChar ∉ word
  terminator : msgTerminatorChar ∉ word
  nul : (0 : UInt8) ∉ word
  length_le : word.length ≤ 20

instance (word : Bytes) : Decidable (IsWord word) :=
  decidable_of_iff (fieldSepChar ∉ word ∧ msgTerminatorChar ∉ word ∧ (0 : UInt8) ∉ word ∧
    word.length ≤ 20) ⟨fun h => ⟨h.1, h.2.1, h.2.2.1, h.2.2.2⟩, fun h => ⟨h.1, h.2, h.3, h.4⟩⟩

section Types

variable {word : Bytes} (hword : IsWord word)
include hword

/-- A line is cut behind its word. -/
theorem snprintf_lineOf_cons (arg : Bytes) (args : List Bytes) :
    ∃ m, word.length + m + 2 = maxMsg ∧ snprintf maxMsg (lineOf word (arg :: args)) =
      word ++ fieldSepChar ::
        (arg ++ (args.flatMap (fieldSepChar :: ·) ++ [msgTerminatorChar])).take m := by
  have hlen := hword.length_le
  obtain ⟨m, hm⟩ := Nat.exists_eq_add_of_le (show word.length + 2 ≤ maxMsg by
    simp only [maxMsg, maxLineLen]
    omega)
  have hcut : maxMsg - 1 - word.length = m + 1 := by omega
  have hshort : word.length ≤ maxMsg - 1 := by omega
  refine ⟨m, by omega, ?_⟩
  rw [snprintf, lineOf, List.flatMap_cons, List.append_assoc, List.take_append,
    List.take_of_length_le hshort, hcut]
  simp

/-- The type that a receiver finds in a line is its word, wherever the line is cut. -/
theorem protoParseType_lineOf (args : List Bytes) :
    (protoParseType (cstr (snprintf maxMsg (lineOf word args)))).1 = word := by
  have hlen := hword.length_le
  cases args with
  | nil =>
    have hline : lineOf word [] = word ++ [msgTerminatorChar] := by simp [lineOf]
    have hfit : (word ++ [msgTerminatorChar]).length < maxMsg := by
      simp only [List.length_append, List.length_singleton, maxMsg, maxLineLen]
      omega
    rw [hline, snprintf_of_lt hfit, cstr_append hword.nul]
    have hnl : cstr [msgTerminatorChar] = [msgTerminatorChar] := by decide
    rw [hnl, protoParseType_word hword.separator]
    simp only [maxMsgLen, maxLineLen]
    omega
  | cons arg args =>
    obtain ⟨m, -, hline⟩ := snprintf_lineOf_cons hword arg args
    rw [hline, cstr_append hword.nul]
    have hcons : ∀ t : Bytes, cstr (fieldSepChar :: t) = fieldSepChar :: cstr t := fun t =>
      cstr_append (s := [fieldSepChar]) (by decide) t
    obtain ⟨rest, htype, -⟩ := protoParseType_prefix hword.separator
      (cstr ((arg ++ (args.flatMap (fieldSepChar :: ·) ++ [msgTerminatorChar])).take m))
    rw [hcons, htype]

/-- A receiver finds the first of two fields whole behind the word, unless it is too long. -/
theorem protoParseType_event {name : Bytes} (hname : (0 : UInt8) ∉ name)
    (hlen : word.length + name.length + 2 ≤ maxMsg - 2) (text : Bytes) :
    ∃ text', protoParseType (cstr (snprintf maxMsg (lineOf word [name, text]))) =
      (word, some (name ++ fieldSepChar :: text')) := by
  obtain ⟨m, hm, hline⟩ := snprintf_lineOf_cons hword name [text]
  have hshort : (name ++ [fieldSepChar]).length ≤ m := by
    rw [List.length_append, List.length_singleton]
    omega
  have hsplit : name ++ ([text].flatMap (fieldSepChar :: ·) ++ [msgTerminatorChar]) =
      (name ++ [fieldSepChar]) ++ (text ++ [msgTerminatorChar]) := by simp
  have hnul : (0 : UInt8) ∉ fieldSepChar :: (name ++ [fieldSepChar]) := by
    simp only [List.mem_cons, List.mem_append, List.not_mem_nil, not_or, or_false]
    exact ⟨by decide, hname, by decide⟩
  rw [hline, hsplit, List.take_append, List.take_of_length_le hshort, cstr_append hword.nul,
    ← List.cons_append, cstr_append hnul, List.cons_append]
  generalize cstr (List.take (m - (name ++ [fieldSepChar]).length) (text ++ [msgTerminatorChar])) =
    tail
  obtain ⟨rest, htype, hrest⟩ := protoParseType_prefix hword.separator
    (name ++ [fieldSepChar] ++ tail)
  rw [htype]
  rcases hrest with rfl | hrest
  · exact ⟨tail, by simp⟩
  · have hne : tail ≠ [] := by
      rintro rfl
      rw [List.append_nil] at hrest
      have := List.append_inj_right' hrest rfl
      exact absurd this (by decide)
    obtain ⟨tail', b, rfl⟩ := (List.eq_nil_or_concat tail).resolve_left hne
    rw [List.concat_eq_append, ← List.append_assoc] at hrest
    obtain rfl := List.append_inj_left' hrest rfl
    exact ⟨tail', by simp⟩

end Types

end ChatMultithread
