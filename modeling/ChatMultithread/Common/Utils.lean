import ChatMultithread.Common.Protocol
import ChatMultithread.Lib.Framing
import ChatMultithread.Lib.Sending

/-!
# Sockets and addresses

`src/common/utils.c`. The input of a socket is the list of the results that the successive
one-byte `recv` calls on it give; where the list ends the peer has closed the connection and
`recv` returns 0.
-/

namespace ChatMultithread

open Lib

/-- The result of one `recv` of a single byte: the byte, `EINTR`, or another error. -/
inductive Recv where
  | byte (ch : UInt8)
  | interrupted
  | failed
  deriving DecidableEq, Repr

/-- The result of a `recv_line`: a line and the input behind it, 0 at the end of the stream,
    or -1. -/
inductive RecvLine where
  | line (buffer : Bytes) (rest : List Recv)
  | closed
  | failed
  deriving DecidableEq, Repr

/-- The loop of the server's `recv_line`, with room for `room` more bytes behind the `used` ones. -/
def recvLineLoop : Nat → Bytes → List Recv → RecvLine
  | 0, used, input => .line used input
  | _ + 1, _, [] => .closed
  | _ + 1, _, .failed :: _ => .failed
  | room + 1, used, .interrupted :: rest => recvLineLoop (room + 1) used rest
  | room + 1, used, .byte ch :: rest =>
      if ch = msgTerminatorChar then .line (used ++ [ch]) rest
      else recvLineLoop room (used ++ [ch]) rest

/-- The server's `recv_line()` with a buffer of `size` bytes. -/
def recvLine (size : Nat) (input : List Recv) : RecvLine := recvLineLoop (size - 1) [] input

/-- The input of a socket on which nothing but bytes arrives. -/
def bytesIn (s : Bytes) : List Recv := s.map .byte

theorem recvLineLoop_bytesIn (room : Nat) (used s : Bytes) :
    recvLineLoop room used (bytesIn s) =
      match nextFrame msgTerminatorChar room s with
      | none => .closed
      | some (b, rest) => .line (used ++ b) (bytesIn rest) := by
  induction s generalizing room used with
  | nil => cases room <;> simp [bytesIn, recvLineLoop, nextFrame]
  | cons ch s ih =>
    cases room with
    | zero => simp [bytesIn, recvLineLoop, nextFrame]
    | succ room =>
      simp only [bytesIn, List.map_cons, recvLineLoop, nextFrame]
      split
      · rfl
      · have := ih room (used ++ [ch])
        rw [bytesIn] at this
        rw [this]
        cases nextFrame msgTerminatorChar room s <;> simp [bytesIn]

/-- On a stream of bytes the server's `recv_line` reads frame by frame. -/
theorem recvLine_bytesIn (size : Nat) (s : Bytes) :
    recvLine size (bytesIn s) =
      match nextFrame msgTerminatorChar (size - 1) s with
      | none => .closed
      | some (b, rest) => .line b (bytesIn rest) :=
  recvLineLoop_bytesIn (size - 1) [] s

theorem recvLineLoop_append {room : Nat} {s b rest : Bytes}
    (h : nextFrame msgTerminatorChar room s = some (b, rest)) (used : Bytes) (more : List Recv) :
    recvLineLoop room used (bytesIn s ++ more) = .line (used ++ b) (bytesIn rest ++ more) := by
  induction s generalizing room used b with
  | nil =>
    cases room with
    | zero =>
      cases h
      simp [bytesIn, recvLineLoop]
    | succ room => cases h
  | cons ch s ih =>
    cases room with
    | zero =>
      cases h
      simp [bytesIn, recvLineLoop]
    | succ room =>
      rw [nextFrame] at h
      simp only [bytesIn, List.map_cons, List.cons_append, recvLineLoop]
      split at h
      · rename_i hch
        cases h
        rw [if_pos hch]
      · rename_i hch
        obtain ⟨⟨b', rest'⟩, hnext, heq⟩ := Option.map_eq_some_iff.1 h
        cases heq
        have hrest := ih hnext (used ++ [ch])
        rw [← List.append_cons] at hrest
        rw [if_neg hch]
        exact hrest

/-- What has arrived whole is read, whatever comes behind it. -/
theorem recvLine_append {size : Nat} {s b rest : Bytes}
    (h : nextFrame msgTerminatorChar (size - 1) s = some (b, rest)) (more : List Recv) :
    recvLine size (bytesIn s ++ more) = .line b (bytesIn rest ++ more) :=
  recvLineLoop_append h [] more

theorem length_recvLineLoop_le {room : Nat} {used buffer : Bytes} {input rest : List Recv}
    (h : recvLineLoop room used input = .line buffer rest) :
    buffer.length ≤ used.length + room := by
  induction room, used, input using recvLineLoop.induct with
  | case1 used input =>
    rw [recvLineLoop] at h
    cases h
    exact Nat.le_refl _
  | case2 room used => cases h
  | case3 room used rest => cases h
  | case4 room used rest ih => exact ih h
  | case5 room used rest =>
    rw [recvLineLoop, if_pos rfl] at h
    cases h
    rw [List.length_append, List.length_singleton]
    omega
  | case6 room used ch rest hch ih =>
    rw [recvLineLoop, if_neg hch] at h
    have hrest := ih h
    rw [List.length_append, List.length_singleton] at hrest
    omega

/-- A line fits the buffer. -/
theorem length_recvLine_le {size : Nat} {input rest : List Recv} {buffer : Bytes}
    (h : recvLine size input = .line buffer rest) : buffer.length ≤ size - 1 := by
  simpa using length_recvLineLoop_le h

/-- The string in the buffer of the server fits those of the parser. -/
theorem length_cstr_recvLine {input rest : List Recv} {buffer : Bytes}
    (h : recvLine maxLineLen input = .line buffer rest) : (cstr buffer).length < maxMsg :=
  Nat.lt_of_le_of_lt (Nat.le_trans (length_cstr_le buffer) (length_recvLine_le h)) (by decide)

/-! ## Successive calls -/

/-- The lines that `n` successive calls of a `recv_line` return, and the input behind them. There
    is no result when one of the calls does not return a line. -/
def recvLines (recv : List Recv → RecvLine) : Nat → List Recv → Option (List Bytes × List Recv)
  | 0, input => some ([], input)
  | n + 1, input =>
      match recv input with
      | .line buffer rest => (recvLines recv n rest).map fun p => (buffer :: p.1, p.2)
      | .closed | .failed => none

/-- A `recv_line` that returns every frame whole returns a stream of frames one by one, and leaves
    what stands behind them. -/
theorem recvLines_flatten {recv : List Recv → RecvLine} {cap : Nat}
    (hrecv : ∀ b, IsFrame msgTerminatorChar cap b → ∀ more, recv (bytesIn b ++ more) = .line b more)
    {bs : List Bytes} (hbs : ∀ b ∈ bs, IsFrame msgTerminatorChar cap b) (more : List Recv) :
    recvLines recv bs.length (bytesIn bs.flatten ++ more) = some (bs, more) := by
  induction bs with
  | nil => rfl
  | cons b bs ih =>
    have hb := hrecv b (hbs b List.mem_cons_self) (bytesIn bs.flatten ++ more)
    have hrest := ih fun x hx => hbs x (List.mem_cons_of_mem _ hx)
    have hinput : bytesIn (b :: bs).flatten ++ more = bytesIn b ++ (bytesIn bs.flatten ++ more) := by
      simp [bytesIn]
    rw [hinput, List.length_cons, recvLines, hb]
    simp only [hrest, Option.map_some]

/-- The server's `recv_line` returns every frame whole. -/
theorem recvLine_frame {size : Nat} {b : Bytes} (hb : IsFrame msgTerminatorChar (size - 1) b)
    (more : List Recv) : recvLine size (bytesIn b ++ more) = .line b more := by
  have hnext := hb.nextFrame []
  rw [List.append_nil] at hnext
  exact recvLine_append hnext more

/-! ## Sending a line -/

/-- The loop of `send_line` behind `totalSent` bytes: what it returns, and the bytes that the socket
    takes. Behind the results in the list every `send` takes all it is given. -/
def sendLineLoop (line : Bytes) : Nat → List SendResult → Int × Bytes
  | totalSent, [] => (0, line.drop totalSent)
  | totalSent, r :: results =>
      if totalSent < line.length then
        match r with
        | .interrupted => sendLineLoop line totalSent results
        | .failed => (-1, [])
        | .accepted k =>
            let sentNow := min k (line.length - totalSent)
            if sentNow = 0 then (-1, [])
            else
              let sent := sendLineLoop line (totalSent + sentNow) results
              (sent.1, (line.drop totalSent).take sentNow ++ sent.2)
      else (0, [])

/-- `send_line()`. -/
def sendLine (line : Bytes) (results : List SendResult) : Int × Bytes := sendLineLoop line 0 results

section Loop

variable {line : Bytes} {totalSent : Nat} {results : List SendResult}

theorem sendLineLoop_done (h : line.length ≤ totalSent) {r : SendResult} :
    sendLineLoop line totalSent (r :: results) = (0, []) := by
  simp [sendLineLoop, Nat.not_lt.2 h]

theorem sendLineLoop_interrupted (h : totalSent < line.length) :
    sendLineLoop line totalSent (.interrupted :: results) =
      sendLineLoop line totalSent results := by
  simp [sendLineLoop, h]

theorem sendLineLoop_failed (h : totalSent < line.length) :
    sendLineLoop line totalSent (.failed :: results) = (-1, []) := by
  simp [sendLineLoop, h]

theorem sendLineLoop_accepted (h : totalSent < line.length) {k : Nat} :
    sendLineLoop line totalSent (.accepted k :: results) =
      if min k (line.length - totalSent) = 0 then (-1, [])
      else
        ((sendLineLoop line (totalSent + min k (line.length - totalSent)) results).1,
          (line.drop totalSent).take (min k (line.length - totalSent)) ++
            (sendLineLoop line (totalSent + min k (line.length - totalSent)) results).2) := by
  simp only [sendLineLoop, if_pos h]

end Loop

/-- The loop sends what is left of the line, or gives up with a part of it still to be sent. -/
theorem sendLineLoop_spec {line : Bytes} {totalSent : Nat} (h : totalSent ≤ line.length)
    (results : List SendResult) :
    sendLineLoop line totalSent results = (0, line.drop totalSent) ∨
      (sendLineLoop line totalSent results).1 = -1 ∧
        (∃ rest, rest ≠ [] ∧
          line.drop totalSent = (sendLineLoop line totalSent results).2 ++ rest) ∧
        ∃ r ∈ results, ¬ r.Willing := by
  induction results generalizing totalSent with
  | nil => exact .inl rfl
  | cons r results ih =>
    by_cases hleft : totalSent < line.length
    · have hne : line.drop totalSent ≠ [] := by
        rw [ne_eq, List.drop_eq_nil_iff]
        omega
      cases r with
      | interrupted =>
        rw [sendLineLoop_interrupted hleft]
        rcases ih h with hall | ⟨hret, hrest, r, hr, hnot⟩
        · exact .inl hall
        · exact .inr ⟨hret, hrest, r, List.mem_cons_of_mem _ hr, hnot⟩
      | failed =>
        rw [sendLineLoop_failed hleft]
        refine .inr ⟨rfl, ⟨_, hne, rfl⟩, .failed, List.mem_cons_self, ?_⟩
        intro hwilling
        exact hwilling.1 rfl
      | accepted k =>
        rw [sendLineLoop_accepted hleft]
        split
        · rename_i hzero
          refine .inr ⟨rfl, ⟨_, hne, rfl⟩, .accepted k, List.mem_cons_self, ?_⟩
          intro hwilling
          apply hwilling.2
          rw [show k = 0 by omega]
        · have hnext : totalSent + min k (line.length - totalSent) ≤ line.length := by omega
          have hsplit : line.drop totalSent =
              (line.drop totalSent).take (min k (line.length - totalSent)) ++
                line.drop (totalSent + min k (line.length - totalSent)) := by
            rw [← List.drop_drop, List.take_append_drop]
          rcases ih hnext with hall | ⟨hret, ⟨rest, hrest, hline⟩, r, hr, hnot⟩
          · left
            rw [hall, ← hsplit]
          · refine .inr ⟨hret, ⟨rest, hrest, ?_⟩, r, List.mem_cons_of_mem _ hr, hnot⟩
            rw [List.append_assoc, ← hline]
            exact hsplit
    · left
      rw [sendLineLoop_done (Nat.not_lt.1 hleft), List.drop_eq_nil_of_le (Nat.not_lt.1 hleft)]

/-- `send_line` returns 0 exactly when the socket has taken the whole line, which otherwise begins
    with what it has taken. -/
theorem sendLine_spec (line : Bytes) (results : List SendResult) :
    ((sendLine line results).1 = 0 ↔ (sendLine line results).2 = line) ∧
      (sendLine line results).2 <+: line := by
  unfold sendLine
  rcases sendLineLoop_spec (Nat.zero_le line.length) results with hall | ⟨hret, ⟨rest, hne, hline⟩, _⟩
  · rw [hall]
    exact ⟨⟨fun _ => rfl, fun _ => rfl⟩, List.prefix_refl line⟩
  · refine ⟨⟨?_, ?_⟩, rest, hline.symm⟩
    · intro hzero
      rw [hret] at hzero
      cases hzero
    · intro hwhole
      rw [hwhole] at hline
      exact absurd (List.self_eq_append_right.1 hline) hne

/-- Short counts and interruptions do not keep it from sending the line. -/
theorem sendLine_willing (line : Bytes) {results : List SendResult}
    (h : ∀ r ∈ results, r.Willing) : sendLine line results = (0, line) := by
  rcases sendLineLoop_spec (Nat.zero_le line.length) results with hall | ⟨_, _, r, hr, hnot⟩
  · exact hall
  · exact absurd (h r hr) hnot

example : sendLine (ascii "BYE\n") [.interrupted, .accepted 3, .interrupted] =
    (0, ascii "BYE\n") := by
  decide

/-! ## Addresses -/

/-- `sin_addr` of a `struct sockaddr_in`, in network order. -/
structure InAddr where
  a : UInt8
  b : UInt8
  c : UInt8
  d : UInt8
  deriving DecidableEq, Repr

/-- One octet as `inet_ntop` prints it. -/
def octetString (n : UInt8) : Bytes :=
  (if n < 100 then [] else [48 + n / 100]) ++ (if n < 10 then [] else [48 + n / 10 % 10]) ++
    [48 + n % 10]

/-- `sockaddr_to_ip_string()` into a buffer of at least `INET_ADDRSTRLEN` bytes, for which
    `inet_ntop` does not fail. -/
def sockaddrToIpString (addr : InAddr) : Bytes :=
  octetString addr.a ++ [46] ++ octetString addr.b ++ [46] ++ octetString addr.c ++ [46] ++
    octetString addr.d

theorem octetString_spec (n : UInt8) :
    (octetString n).length ≤ 3 ∧ ∀ b ∈ octetString n, 48 ≤ b ∧ b ≤ 57 := by
  have h : ∀ n : Fin 256, (octetString (UInt8.ofFin n)).length ≤ 3 ∧
      (octetString (UInt8.ofFin n)).all (fun b => 48 ≤ b && b ≤ 57) = true := by decide +kernel
  obtain ⟨hlen, hall⟩ := h n.toFin
  refine ⟨hlen, fun b hb => ?_⟩
  simpa using List.all_eq_true.1 hall b hb

/-- An address is printed with digits and dots only. -/
theorem not_mem_sockaddrToIpString (addr : InAddr) {b : UInt8} (hdot : b ≠ 46)
    (hdigit : ¬ (48 ≤ b ∧ b ≤ 57)) : b ∉ sockaddrToIpString addr := by
  simp only [sockaddrToIpString, List.mem_append, List.mem_singleton, not_or]
  exact ⟨⟨⟨⟨⟨⟨fun h => hdigit ((octetString_spec _).2 b h), hdot⟩,
    fun h => hdigit ((octetString_spec _).2 b h)⟩, hdot⟩,
    fun h => hdigit ((octetString_spec _).2 b h)⟩, hdot⟩,
    fun h => hdigit ((octetString_spec _).2 b h)⟩

end ChatMultithread
