import Mathlib.Data.List.Basic
import Mathlib.Data.List.TakeDrop

/-!
# Framing a stream with a terminator and a capacity

A reader takes elements from a stream until it has read the terminator or its buffer is full.
A buffer that the reader returns whole, wherever it stands in the stream, is a frame: its
terminator, if it has one, is its last element, and it has none only when it fills the reader's
buffer. A stream of frames is read back frame by frame.
-/

namespace ChatMultithread.Lib

variable {α : Type} [DecidableEq α]

/-- What a reader with room for `room` elements returns and leaves of the stream; there is no
    result when the stream ends first. -/
def nextFrame (nl : α) : Nat → List α → Option (List α × List α)
  | 0, input => some ([], input)
  | _ + 1, [] => none
  | room + 1, b :: rest =>
      if b = nl then some ([b], rest)
      else (nextFrame nl room rest).map fun p => (b :: p.1, p.2)

/-- The frames of at most `fuel` successive reads. -/
def framesFrom (nl : α) (cap : Nat) : Nat → List α → List (List α)
  | 0, _ => []
  | fuel + 1, input =>
      match nextFrame nl cap input with
      | none => []
      | some (b, rest) => b :: framesFrom nl cap fuel rest

/-- The frames of a stream. A read takes at least one element, so no stream has more frames
    than elements. -/
def frames (nl : α) (cap : Nat) (input : List α) : List (List α) :=
  framesFrom nl cap input.length input

/-- A buffer that a reader of capacity `cap` returns whole. -/
structure IsFrame (nl : α) (cap : Nat) (b : List α) : Prop where
  ne_nil : b ≠ []
  inner : nl ∉ b.dropLast
  length_le : b.length ≤ cap
  last : b.length = cap ∨ b.getLast? = some nl

theorem nextFrame_of_not_mem {nl : α} {b : List α} (hb : nl ∉ b) (rest : List α) :
    nextFrame nl b.length (b ++ rest) = some (b, rest) := by
  induction b with
  | nil => rfl
  | cons x xs ih =>
    obtain ⟨hx, hxs⟩ := not_or.1 (List.mem_cons.not.1 hb)
    simp [nextFrame, Ne.symm hx, ih hxs]

theorem nextFrame_of_terminated {nl : α} {b : List α} (hb : nl ∉ b) {room : Nat}
    (hroom : b.length < room) (rest : List α) :
    nextFrame nl room (b ++ nl :: rest) = some (b ++ [nl], rest) := by
  induction b generalizing room with
  | nil =>
    obtain ⟨room, rfl⟩ := Nat.exists_eq_succ_of_ne_zero (Nat.ne_of_gt hroom)
    simp [nextFrame]
  | cons x xs ih =>
    obtain ⟨hx, hxs⟩ := not_or.1 (List.mem_cons.not.1 hb)
    obtain ⟨room, rfl⟩ := Nat.exists_eq_succ_of_ne_zero (Nat.ne_zero_of_lt hroom)
    simp [nextFrame, Ne.symm hx, ih hxs (by simpa using hroom)]

/-- There is no frame only where neither the terminator nor the capacity is reached. -/
theorem nextFrame_eq_none {nl : α} {room : Nat} {s : List α} (h : nextFrame nl room s = none) :
    nl ∉ s ∧ s.length < room := by
  induction s generalizing room with
  | nil =>
    cases room with
    | zero => cases h
    | succ room => exact ⟨List.not_mem_nil, Nat.succ_pos _⟩
  | cons b s ih =>
    cases room with
    | zero => cases h
    | succ room =>
      rw [nextFrame] at h
      split at h
      · cases h
      · rename_i hb
        obtain ⟨hnl, hlen⟩ := ih (Option.map_eq_none_iff.1 h)
        rw [List.mem_cons, not_or]
        exact ⟨⟨Ne.symm hb, hnl⟩, Nat.succ_lt_succ hlen⟩

/-- A frame is cut at the capacity or ends with the terminator. -/
theorem nextFrame_eq_some {nl : α} {room : Nat} {s b rest : List α}
    (h : nextFrame nl room s = some (b, rest)) :
    s = b ++ rest ∧ (nl ∉ b ∧ b.length = room ∨
      ∃ body, b = body ++ [nl] ∧ nl ∉ body ∧ body.length < room) := by
  induction s generalizing room b with
  | nil =>
    cases room with
    | zero =>
      cases h
      exact ⟨rfl, .inl ⟨List.not_mem_nil, rfl⟩⟩
    | succ room => cases h
  | cons x s ih =>
    cases room with
    | zero =>
      cases h
      exact ⟨rfl, .inl ⟨List.not_mem_nil, rfl⟩⟩
    | succ room =>
      rw [nextFrame] at h
      split at h
      · rename_i hx
        cases h
        rw [hx]
        exact ⟨rfl, .inr ⟨[], rfl, List.not_mem_nil, Nat.succ_pos _⟩⟩
      · rename_i hx
        obtain ⟨⟨b', rest'⟩, hnext, heq⟩ := Option.map_eq_some_iff.1 h
        cases heq
        obtain ⟨rfl, hcut | ⟨body, rfl, hbody, hlen⟩⟩ := ih hnext
        · refine ⟨rfl, .inl ⟨?_, congrArg _ hcut.2⟩⟩
          rw [List.mem_cons, not_or]
          exact ⟨Ne.symm hx, hcut.1⟩
        · refine ⟨rfl, .inr ⟨x :: body, rfl, ?_, Nat.succ_lt_succ hlen⟩⟩
          rw [List.mem_cons, not_or]
          exact ⟨Ne.symm hx, hbody⟩

/-- A reader returns a frame whole and leaves what stands behind it. -/
theorem IsFrame.nextFrame {nl : α} {cap : Nat} {b : List α} (hb : IsFrame nl cap b)
    (rest : List α) : nextFrame nl cap (b ++ rest) = some (b, rest) := by
  have hsplit : b.dropLast ++ [b.getLast hb.ne_nil] = b := List.dropLast_append_getLast hb.ne_nil
  by_cases hlast : b.getLast hb.ne_nil = nl
  · have hlen : b.dropLast.length < cap := by
      have := hb.length_le
      have := List.length_pos_of_ne_nil hb.ne_nil
      rw [List.length_dropLast]
      omega
    rw [hlast] at hsplit
    have := nextFrame_of_terminated hb.inner hlen rest
    rwa [← List.singleton_append, ← List.append_assoc, hsplit] at this
  · have hmem : nl ∉ b := by
      rw [← hsplit, List.mem_append, List.mem_singleton]
      exact not_or.2 ⟨hb.inner, fun e => hlast e.symm⟩
    have hcap : b.length = cap := by
      refine hb.last.resolve_right fun h => hlast ?_
      rw [List.getLast?_eq_getLast_of_ne_nil hb.ne_nil] at h
      exact Option.some.inj h
    rw [← hcap]
    exact nextFrame_of_not_mem hmem rest

omit [DecidableEq α] in
/-- What a reader of capacity `cap` returns is a frame. -/
theorem isFrame_of_cut {nl : α} {cap : Nat} (hcap : 0 < cap) {b : List α}
    (h : nl ∉ b ∧ b.length = cap ∨ ∃ body, b = body ++ [nl] ∧ nl ∉ body ∧ body.length < cap) :
    IsFrame nl cap b := by
  rcases h with ⟨hnl, hlen⟩ | ⟨body, rfl, hbody, hlen⟩
  · refine ⟨?_, fun hmem => hnl (List.dropLast_subset _ hmem), Nat.le_of_eq hlen, .inl hlen⟩
    exact List.ne_nil_of_length_pos (by rw [hlen]; exact hcap)
  · refine ⟨by simp, ?_, ?_, .inr List.getLast?_concat⟩
    · rw [List.dropLast_concat]
      exact hbody
    · rw [List.length_append, List.length_singleton]
      exact hlen

theorem isFrame_of_nextFrame {nl : α} {cap : Nat} (hcap : 0 < cap) {s b rest : List α}
    (h : nextFrame nl cap s = some (b, rest)) : IsFrame nl cap b :=
  isFrame_of_cut hcap (nextFrame_eq_some h).2

theorem framesFrom_flatten {nl : α} {cap : Nat} (hcap : 0 < cap) {bs : List (List α)}
    (hbs : ∀ b ∈ bs, IsFrame nl cap b) {fuel : Nat} (hfuel : bs.flatten.length ≤ fuel) :
    framesFrom nl cap fuel bs.flatten = bs := by
  induction bs generalizing fuel with
  | nil =>
    cases fuel with
    | zero => rfl
    | succ fuel =>
      obtain ⟨cap, rfl⟩ := Nat.exists_eq_succ_of_ne_zero (Nat.ne_of_gt hcap)
      rfl
  | cons b bs ih =>
    have hb := hbs b List.mem_cons_self
    have hpos := List.length_pos_of_ne_nil hb.ne_nil
    rw [List.flatten_cons, List.length_append] at hfuel
    obtain ⟨fuel, rfl⟩ := Nat.exists_eq_succ_of_ne_zero (show fuel ≠ 0 by omega)
    simp only [List.flatten_cons, framesFrom, hb.nextFrame]
    rw [ih (fun x hx => hbs x (List.mem_cons_of_mem _ hx)) (by omega)]

/-- A stream of frames is read back frame by frame. -/
theorem frames_flatten {nl : α} {cap : Nat} (hcap : 0 < cap) {bs : List (List α)}
    (hbs : ∀ b ∈ bs, IsFrame nl cap b) : frames nl cap bs.flatten = bs :=
  framesFrom_flatten hcap hbs (Nat.le_refl _)

omit [DecidableEq α] in
/-- Text closed by a terminator and cut at the capacity is a frame exactly when the part of the
    text that is not cut away has no terminator. -/
theorem isFrame_take_iff {nl : α} {cap : Nat} (hcap : 0 < cap) {b : List α} :
    IsFrame nl cap ((b ++ [nl]).take cap) ↔ nl ∉ b.take (cap - 1) := by
  have hinner : ((b ++ [nl]).take cap).dropLast = b.take (cap - 1) := by
    rw [List.dropLast_take_eq_take_dropLast, List.dropLast_concat]
  constructor
  · intro h
    rw [← hinner]
    exact h.inner
  · intro h
    refine ⟨by simp [Nat.ne_of_gt hcap], by rw [hinner]; exact h, List.length_take_le _ _, ?_⟩
    by_cases hlen : cap ≤ b.length
    · exact .inl (by simp; omega)
    · exact .inr (by rw [List.take_of_length_le (by simp; omega)]; simp)

omit [DecidableEq α] in
/-- Text without a terminator, closed by one and cut at the capacity, is a frame. -/
theorem isFrame_take {nl : α} {cap : Nat} (hcap : 0 < cap) {b : List α} (hb : nl ∉ b) :
    IsFrame nl cap ((b ++ [nl]).take cap) :=
  (isFrame_take_iff hcap).2 fun h => hb (List.mem_of_mem_take h)

end ChatMultithread.Lib
