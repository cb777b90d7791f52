import ChatMultithread.Client.ReceiverLoop

/-!
# The segments that `recv_line` returns

The server's `recv_line` of `src/common/utils.c` and the client's of `src/client/receiver_loop.c`,
called again and again on one socket. The segments depend on the bytes of the stream only: the
server's loop goes on behind an `EINTR`, and the client's is the same loop where there is none.
-/

namespace ChatMultithread

open Lib

/-- The bytes of an input. -/
def bytesOf : List Recv → Bytes
  | [] => []
  | .byte ch :: rest => ch :: bytesOf rest
  | .interrupted :: rest | .failed :: rest => bytesOf rest

/-- The server's loop takes the next frame of the bytes, or finds that there is none. -/
theorem recvLineLoop_spec {room : Nat} {used : Bytes} {input : List Recv}
    (hok : Recv.failed ∉ input) :
    nextFrame msgTerminatorChar room (bytesOf input) = none ∧
        recvLineLoop room used input = .closed ∨
      ∃ b rest, nextFrame msgTerminatorChar room (bytesOf input) = some (b, bytesOf rest) ∧
        recvLineLoop room used input = .line (used ++ b) rest ∧ rest <:+ input := by
  induction room, used, input using recvLineLoop.induct with
  | case1 used input =>
    right
    refine ⟨[], input, ?_, ?_, List.suffix_refl input⟩
    · rw [nextFrame]
    · rw [recvLineLoop, List.append_nil]
  | case2 room used =>
    left
    exact ⟨rfl, rfl⟩
  | case3 room used rest => exact absurd List.mem_cons_self hok
  | case4 room used rest ih =>
    rw [bytesOf, recvLineLoop]
    rcases ih (fun h => hok (List.mem_cons_of_mem _ h)) with hend | ⟨b, left, hnext, hline, hsuffix⟩
    · exact .inl hend
    · exact .inr ⟨b, left, hnext, hline, hsuffix.trans (List.suffix_cons _ _)⟩
  | case5 room used rest =>
    right
    refine ⟨[msgTerminatorChar], rest, ?_, ?_, List.suffix_cons _ _⟩
    · rw [bytesOf, nextFrame, if_pos rfl]
    · rw [recvLineLoop, if_pos rfl]
  | case6 room used ch rest hch ih =>
    rw [bytesOf, recvLineLoop, nextFrame, if_neg hch, if_neg hch]
    rcases ih (fun h => hok (List.mem_cons_of_mem _ h)) with
      ⟨hnone, hend⟩ | ⟨b, left, hnext, hline, hsuffix⟩
    · left
      rw [hnone]
      exact ⟨rfl, hend⟩
    · right
      refine ⟨ch :: b, left, ?_, ?_, hsuffix.trans (List.suffix_cons _ _)⟩
      · rw [hnext, Option.map_some]
      · rw [hline, List.append_assoc, List.singleton_append]

/-- The server's `recv_line` on an input without failures. -/
theorem recvLine_spec {input : List Recv} (hok : Recv.failed ∉ input) (size : Nat) :
    nextFrame msgTerminatorChar (size - 1) (bytesOf input) = none ∧
        recvLine size input = .closed ∨
      ∃ b rest, nextFrame msgTerminatorChar (size - 1) (bytesOf input) = some (b, bytesOf rest) ∧
        recvLine size input = .line b rest ∧ rest <:+ input :=
  recvLineLoop_spec hok

/-- Successive calls return frames and leave the bytes behind them. -/
theorem recvLines_spec {size : Nat} (hsize : 2 ≤ size) {n : Nat} {input rest : List Recv}
    {segs : List Bytes} (hok : Recv.failed ∉ input)
    (h : recvLines (recvLine size) n input = some (segs, rest)) :
    bytesOf input = segs.flatten ++ bytesOf rest ∧
      (∀ b ∈ segs, IsFrame msgTerminatorChar (size - 1) b) ∧ rest <:+ input := by
  induction n generalizing input segs with
  | zero =>
    cases h
    exact ⟨rfl, List.forall_mem_nil _, List.suffix_refl _⟩
  | succ n ih =>
    rw [recvLines] at h
    rcases recvLine_spec hok size with ⟨-, hend⟩ | ⟨b, left, hnext, hline, hsuffix⟩
    · rw [hend] at h
      cases h
    · rw [hline] at h
      obtain ⟨⟨segs', rest'⟩, hrest, heq⟩ := Option.map_eq_some_iff.1 h
      cases heq
      obtain ⟨hbytes, hframes, hleft⟩ := ih (fun hmem => hok (hsuffix.subset hmem)) hrest
      refine ⟨?_, ?_, hleft.trans hsuffix⟩
      · rw [(nextFrame_eq_some hnext).1, hbytes, List.flatten_cons, List.append_assoc]
      · rw [List.forall_mem_cons]
        exact ⟨isFrame_of_nextFrame (by omega) hnext, hframes⟩

/-- The calls come to the end of the stream, when they have returned its frames. -/
theorem recvLines_frames {size : Nat} (hsize : 2 ≤ size) {fuel : Nat} {input : List Recv}
    (hok : Recv.failed ∉ input) (hfuel : (bytesOf input).length ≤ fuel) :
    ∃ rest, recvLine size rest = .closed ∧
      recvLines (recvLine size)
          (framesFrom msgTerminatorChar (size - 1) fuel (bytesOf input)).length input =
        some (framesFrom msgTerminatorChar (size - 1) fuel (bytesOf input), rest) := by
  induction fuel generalizing input with
  | zero =>
    rcases recvLine_spec hok size with ⟨-, hend⟩ | ⟨b, left, hnext, -, -⟩
    · exact ⟨input, hend, rfl⟩
    · have hbytes := (nextFrame_eq_some hnext).1
      have hne := (isFrame_of_nextFrame (by omega) hnext).ne_nil
      rw [List.eq_nil_of_length_eq_zero (Nat.le_zero.1 hfuel)] at hbytes
      exact absurd (List.append_eq_nil_iff.1 hbytes.symm).1 hne
  | succ fuel ih =>
    rcases recvLine_spec hok size with ⟨hnone, hend⟩ | ⟨b, left, hnext, hline, hsuffix⟩
    · refine ⟨input, hend, ?_⟩
      rw [framesFrom, hnone]
      rfl
    · have hpos := List.length_pos_of_ne_nil (isFrame_of_nextFrame (by omega) hnext).ne_nil
      have hshort : (bytesOf left).length ≤ fuel := by
        rw [(nextFrame_eq_some hnext).1, List.length_append] at hfuel
        omega
      obtain ⟨rest, hend, hrest⟩ := ih (fun hmem => hok (hsuffix.subset hmem)) hshort
      refine ⟨rest, hend, ?_⟩
      rw [framesFrom, hnext]
      simp only [List.length_cons, recvLines, hline, hrest, Option.map_some]

/-! ## The client -/

/-- An input of bytes only. -/
theorem bytesIn_bytesOf {input : List Recv} (hok : Recv.failed ∉ input)
    (heintr : Recv.interrupted ∉ input) : bytesIn (bytesOf input) = input := by
  induction input with
  | nil => rfl
  | cons r input ih =>
    have hrest := ih (fun h => hok (List.mem_cons_of_mem _ h))
      (fun h => heintr (List.mem_cons_of_mem _ h))
    cases r with
    | byte ch =>
      rw [bytesIn] at hrest
      rw [bytesOf, bytesIn, List.map_cons, hrest]
    | interrupted => exact absurd List.mem_cons_self heintr
    | failed => exact absurd List.mem_cons_self hok

/-- Where no `recv` is interrupted the two functions do the same. -/
theorem clientRecvLine_eq {input : List Recv} (hok : Recv.failed ∉ input)
    (heintr : Recv.interrupted ∉ input) (size : Nat) :
    clientRecvLine size input = recvLine size input := by
  rw [← bytesIn_bytesOf hok heintr]
  refine (clientRecvLine_bytesIn size _).trans (Eq.trans ?_ (recvLine_bytesIn size _).symm)
  cases nextFrame msgTerminatorChar (size - 1) (bytesOf input) with
  | none => rfl
  | some p => rfl

theorem clientRecvLines_eq {input : List Recv} (hok : Recv.failed ∉ input)
    (heintr : Recv.interrupted ∉ input) (size n : Nat) :
    recvLines (clientRecvLine size) n input = recvLines (recvLine size) n input := by
  induction n generalizing input with
  | zero => rfl
  | succ n ih =>
    rw [recvLines, recvLines, clientRecvLine_eq hok heintr]
    rcases recvLine_spec hok size with ⟨-, hend⟩ | ⟨b, left, -, hline, hsuffix⟩
    · rw [hend]
    · rw [hline]
      simp only [ih (fun hmem => hok (hsuffix.subset hmem))
        (fun hmem => heintr (hsuffix.subset hmem))]

/-! ## Both -/

/-- What successive calls of `recv` return and leave: the bytes of the input in their order, cut
    into frames, and at the end of the stream less than a frame. -/
structure Segmented (recv : List Recv → RecvLine) (size : Nat) (input : List Recv)
    (segs : List Bytes) (rest : List Recv) : Prop where
  lossless : segs.flatten ++ bytesOf rest = bytesOf input
  frames : ∀ b ∈ segs, IsFrame msgTerminatorChar (size - 1) b
  goesOn : recv rest ≠ .failed
  dropped : recv rest = .closed → (bytesOf rest).length < size - 1 ∧
    msgTerminatorChar ∉ bytesOf rest

/-- The server's `recv_line` segments every stream, however its calls are interrupted, and comes to
    its end; the client's returns the same where none is. -/
theorem recvLine_segments {size : Nat} (hsize : 2 ≤ size) {input : List Recv}
    (hok : Recv.failed ∉ input) :
    (∀ n segs rest, recvLines (recvLine size) n input = some (segs, rest) →
      Segmented (recvLine size) size input segs rest) ∧
    (∃ n segs rest, recvLines (recvLine size) n input = some (segs, rest) ∧
      recvLine size rest = .closed) ∧
    (Recv.interrupted ∉ input → ∀ n,
      recvLines (clientRecvLine size) n input = recvLines (recvLine size) n input ∧
      ∀ segs rest, recvLines (recvLine size) n input = some (segs, rest) →
        clientRecvLine size rest = recvLine size rest) := by
  refine ⟨?_, ?_, ?_⟩
  · intro n segs rest h
    obtain ⟨hbytes, hframes, hsuffix⟩ := recvLines_spec hsize hok h
    have hrest := recvLine_spec (fun hmem => hok (hsuffix.subset hmem)) size
    refine { lossless := hbytes.symm, frames := hframes, goesOn := ?_, dropped := ?_ }
    · intro hfailed
      rw [hfailed] at hrest
      rcases hrest with ⟨-, hend⟩ | ⟨b, left, -, hline, -⟩
      · cases hend
      · cases hline
    · intro hclosed
      rw [hclosed] at hrest
      rcases hrest with ⟨hnone, -⟩ | ⟨b, left, -, hline, -⟩
      · exact (nextFrame_eq_none hnone).symm
      · cases hline
  · obtain ⟨rest, hend, hall⟩ := recvLines_frames hsize hok (Nat.le_refl _)
    exact ⟨_, _, rest, hall, hend⟩
  · intro heintr n
    refine ⟨clientRecvLines_eq hok heintr size n, ?_⟩
    intro segs rest h
    obtain ⟨-, -, hsuffix⟩ := recvLines_spec hsize hok h
    exact clientRecvLine_eq (fun hmem => hok (hsuffix.subset hmem))
      (fun hmem => heintr (hsuffix.subset hmem)) size

/-- A stream of two lines, the first longer than the buffer, and the beginning of a third. -/
theorem recvLine_segments_interrupted :
    Segmented (recvLine 4) 4
      (.interrupted :: (bytesIn (ascii "LIST\nab\nx") ++ [.interrupted]))
      [ascii "LIS", ascii "T\n", ascii "ab\n"] (bytesIn (ascii "x") ++ [.interrupted]) :=
  (recvLine_segments (by decide) (by decide)).1 3 _ _ (by decide)

end ChatMultithread
