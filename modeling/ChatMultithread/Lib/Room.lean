import Mathlib.Data.Fin.Tuple.Basic
import Mathlib.Data.List.FinRange

/-!
# Rooms

A room has numbered seats. Who sits in one is a client, who may have a name, and nobody sits twice
and no name is borne twice: a room in which that is not so cannot be built. Beside the seats stands
what every client has been told since it came.

The operations seat and unseat a client, give a name that is free, change what is known of an
occupant, and tell something to one client or to all occupants of a kind.
-/

namespace ChatMultithread.Lib

/-- Who sits in a seat. -/
structure Occupant (Client Name Info : Type) where
  client : Client
  name : Option Name
  info : Info

/-- The seats of a room and what its clients have heard. -/
@[ext] structure Room (n : Nat) (Client Name Info Msg : Type) where
  seats : Fin n → Option (Occupant Client Name Info)
  heard : Client → List Msg
  client_inj : ∀ i j o p, seats i = some o → seats j = some p → o.client = p.client → i = j
  name_inj : ∀ i j o p u, seats i = some o → seats j = some p → o.name = some u →
    p.name = some u → i = j

namespace Room

variable {n : Nat} {Client Name Info Msg : Type}

/-- Nobody has come yet. -/
def empty : Room n Client Name Info Msg where
  seats _ := none
  heard _ := []
  client_inj _ _ _ _ hi := by cases hi
  name_inj _ _ _ _ _ hi := by cases hi

variable (r : Room n Client Name Info Msg) {i j : Fin n} {o : Occupant Client Name Info}

/-- The client is in no seat. -/
def Absent (c : Client) : Prop := ∀ i, ∀ o ∈ r.seats i, o.client ≠ c

instance [DecidableEq Client] (c : Client) : Decidable (r.Absent c) :=
  inferInstanceAs (Decidable (∀ i, ∀ o ∈ r.seats i, o.client ≠ c))

/-- The first seat that is free. -/
def free : Option (Fin n) := (List.finRange n).find? fun i => (r.seats i).isNone

/-- The seat of the client. -/
def seatOf [DecidableEq Client] (c : Client) : Option (Fin n) :=
  (List.finRange n).find? fun i => (r.seats i).any fun o => o.client = c

/-- The seat of the one who bears the name. -/
def holder [DecidableEq Name] (u : Name) : Option (Fin n) :=
  (List.finRange n).find? fun i => (r.seats i).any fun o => o.name = some u

/-- The names in the room, in the order of the seats. -/
def names : List Name :=
  (List.finRange n).filterMap fun i => (r.seats i).bind fun o => o.name

variable {r}

theorem free_eq_some (h : r.free = some i) : r.seats i = none := by
  simpa using List.find?_some h

theorem holder_eq_some [DecidableEq Name] {u : Name} :
    r.holder u = some i ↔ ∃ o, r.seats i = some o ∧ o.name = some u := by
  constructor
  · intro h
    have hi := List.find?_some h
    simpa [Option.any_eq_true] using hi
  · rintro ⟨o, hi, ho⟩
    cases hfind : r.holder u with
    | none =>
      have hnone := List.find?_eq_none.1 hfind i (List.mem_finRange i)
      simp [hi, ho] at hnone
    | some j =>
      have hj := List.find?_some hfind
      simp only [Option.any_eq_true, decide_eq_true_eq] at hj
      obtain ⟨p, hp, hname⟩ := hj
      rw [r.name_inj i j o p u hi hp ho hname]

theorem holder_eq_none [DecidableEq Name] {u : Name} :
    r.holder u = none ↔ ∀ i o, r.seats i = some o → o.name ≠ some u := by
  constructor
  · intro h i o hi ho
    rw [holder_eq_some.2 ⟨o, hi, ho⟩] at h
    cases h
  · intro h
    cases hfind : r.holder u with
    | none => rfl
    | some i =>
      obtain ⟨o, hi, ho⟩ := holder_eq_some.1 hfind
      exact absurd ho (h i o hi)

theorem seatOf_eq_some [DecidableEq Client] {c : Client} :
    r.seatOf c = some i ↔ ∃ o, r.seats i = some o ∧ o.client = c := by
  constructor
  · intro h
    have hi := List.find?_some h
    simpa [Option.any_eq_true] using hi
  · rintro ⟨o, hi, ho⟩
    cases hfind : r.seatOf c with
    | none =>
      have hnone := List.find?_eq_none.1 hfind i (List.mem_finRange i)
      simp [hi, ho] at hnone
    | some j =>
      have hj := List.find?_some hfind
      simp only [Option.any_eq_true, decide_eq_true_eq] at hj
      obtain ⟨p, hp, hclient⟩ := hj
      rw [r.client_inj i j o p hi hp (ho.trans hclient.symm)]

/-- Nobody's name is listed twice. -/
theorem nodup_names : r.names.Nodup := by
  refine List.Nodup.filterMap ?_ (List.nodup_finRange n)
  intro i j u hi hj
  obtain ⟨o, ho, hou⟩ := Option.bind_eq_some_iff.1 hi
  obtain ⟨p, hp, hpu⟩ := Option.bind_eq_some_iff.1 hj
  exact r.name_inj i j o p u ho hp hou hpu

variable (r)

/-! ## Who sits where -/

/-- A client takes a seat. -/
def enter (i : Fin n) (c : Client) (info : Info) (hc : r.Absent c) :
    Room n Client Name Info Msg where
  seats := Function.update r.seats i (some ⟨c, none, info⟩)
  heard := r.heard
  client_inj := by
    intro j k o p hj hk hop
    rw [Function.update_apply] at hj hk
    split at hj <;> split at hk
    · exact ‹j = i›.trans ‹k = i›.symm
    · cases hj
      exact absurd hop.symm (hc k p hk)
    · cases hk
      exact absurd hop (hc j o hj)
    · exact r.client_inj j k o p hj hk hop
  name_inj := by
    intro j k o p u hj hk ho hp
    rw [Function.update_apply] at hj hk
    split at hj
    · cases hj
      cases ho
    split at hk
    · cases hk
      cases hp
    · exact r.name_inj j k o p u hj hk ho hp

/-- Who sits in the seat leaves. -/
def vacate (i : Fin n) : Room n Client Name Info Msg where
  seats := Function.update r.seats i none
  heard := r.heard
  client_inj := by
    intro j k o p hj hk hop
    rw [Function.update_apply] at hj hk
    split at hj
    · cases hj
    split at hk
    · cases hk
    · exact r.client_inj j k o p hj hk hop
  name_inj := by
    intro j k o p u hj hk ho hp
    rw [Function.update_apply] at hj hk
    split at hj
    · cases hj
    split at hk
    · cases hk
    · exact r.name_inj j k o p u hj hk ho hp

/-- Who sits in the seat gets a name that nobody has. -/
def christen [DecidableEq Name] (i : Fin n) (u : Name) (hu : r.holder u = none) :
    Room n Client Name Info Msg where
  seats := Function.update r.seats i ((r.seats i).map fun o => { o with name := some u })
  heard := r.heard
  client_inj := by
    have hclient : ∀ j o, Function.update r.seats i
        ((r.seats i).map fun o => { o with name := some u }) j = some o →
        ∃ p, r.seats j = some p ∧ p.client = o.client := by
      intro j o hj
      rw [Function.update_apply] at hj
      split at hj
      · rename_i hji
        obtain ⟨p, hp, rfl⟩ := Option.map_eq_some_iff.1 hj
        exact ⟨p, hji ▸ hp, rfl⟩
      · exact ⟨o, hj, rfl⟩
    intro j k o p hj hk hop
    obtain ⟨o', ho', heo⟩ := hclient j o hj
    obtain ⟨p', hp', hep⟩ := hclient k p hk
    exact r.client_inj j k o' p' ho' hp' (heo.trans (hop.trans hep.symm))
  name_inj := by
    have hfree := holder_eq_none.1 hu
    intro j k o p v hj hk ho hp
    rw [Function.update_apply] at hj hk
    split at hj <;> split at hk
    · exact ‹j = i›.trans ‹k = i›.symm
    · obtain ⟨o', -, rfl⟩ := Option.map_eq_some_iff.1 hj
      cases ho
      exact absurd hp (hfree k p hk)
    · obtain ⟨p', -, rfl⟩ := Option.map_eq_some_iff.1 hk
      cases hp
      exact absurd ho (hfree j o hj)
    · exact r.name_inj j k o p v hj hk ho hp

/-- What is known of the occupants changes. -/
def amend (f : Fin n → Info → Info) : Room n Client Name Info Msg where
  seats i := (r.seats i).map fun o => { o with info := f i o.info }
  heard := r.heard
  client_inj := by
    intro j k o p hj hk hop
    obtain ⟨o', ho', rfl⟩ := Option.map_eq_some_iff.1 hj
    obtain ⟨p', hp', rfl⟩ := Option.map_eq_some_iff.1 hk
    exact r.client_inj j k o' p' ho' hp' hop
  name_inj := by
    intro j k o p u hj hk ho hp
    obtain ⟨o', ho', rfl⟩ := Option.map_eq_some_iff.1 hj
    obtain ⟨p', hp', rfl⟩ := Option.map_eq_some_iff.1 hk
    exact r.name_inj j k o' p' u ho' hp' ho hp

/-- What is known of one occupant changes. -/
def amendAt (i : Fin n) (f : Info → Info) : Room n Client Name Info Msg :=
  r.amend fun j info => if j = i then f info else info

/-! ## Who is told what -/

/-- Every client with a reason to is told something more. -/
def tellBy (said : Client → List Msg) : Room n Client Name Info Msg :=
  { r with heard := fun c => r.heard c ++ said c }

/-- A client is told something. -/
def tell [DecidableEq Client] (c : Client) (m : Msg) : Room n Client Name Info Msg :=
  r.tellBy fun d => if d = c then [m] else []

/-- The occupants of a kind are told something, each by its seat. -/
def tellAll [DecidableEq Client] (m : Fin n → Occupant Client Name Info → Option Msg) :
    Room n Client Name Info Msg :=
  r.tellBy fun d => match r.seatOf d with
    | none => []
    | some i => ((r.seats i).bind (m i)).toList

/-! ## What the operations leave alone -/

@[simp] theorem enter_seats (i : Fin n) (c : Client) (info : Info) (hc : r.Absent c) :
    (r.enter i c info hc).seats = Function.update r.seats i (some ⟨c, none, info⟩) := rfl
@[simp] theorem enter_heard (i : Fin n) (c : Client) (info : Info) (hc : r.Absent c) :
    (r.enter i c info hc).heard = r.heard := rfl
@[simp] theorem vacate_seats (i : Fin n) :
    (r.vacate i).seats = Function.update r.seats i none := rfl
@[simp] theorem vacate_heard (i : Fin n) : (r.vacate i).heard = r.heard := rfl
@[simp] theorem christen_seats [DecidableEq Name] (i : Fin n) (u : Name) (hu : r.holder u = none) :
    (r.christen i u hu).seats =
      Function.update r.seats i ((r.seats i).map fun o => { o with name := some u }) := rfl
@[simp] theorem christen_heard [DecidableEq Name] (i : Fin n) (u : Name) (hu : r.holder u = none) :
    (r.christen i u hu).heard = r.heard := rfl
@[simp] theorem amend_seats (f : Fin n → Info → Info) (i : Fin n) :
    (r.amend f).seats i = (r.seats i).map fun o => { o with info := f i o.info } := rfl
@[simp] theorem amend_heard (f : Fin n → Info → Info) : (r.amend f).heard = r.heard := rfl
@[simp] theorem amendAt_heard (i : Fin n) (f : Info → Info) :
    (r.amendAt i f).heard = r.heard := rfl
@[simp] theorem tellBy_seats (said : Client → List Msg) : (r.tellBy said).seats = r.seats := rfl
@[simp] theorem tellBy_heard (said : Client → List Msg) (c : Client) :
    (r.tellBy said).heard c = r.heard c ++ said c := rfl
@[simp] theorem tell_seats [DecidableEq Client] (c : Client) (m : Msg) :
    (r.tell c m).seats = r.seats := rfl
@[simp] theorem tellAll_seats [DecidableEq Client]
    (m : Fin n → Occupant Client Name Info → Option Msg) : (r.tellAll m).seats = r.seats := rfl

theorem amendAt_seats (i : Fin n) (f : Info → Info) :
    (r.amendAt i f).seats =
      Function.update r.seats i ((r.seats i).map fun o => { o with info := f o.info }) := by
  funext j
  rw [amendAt, amend_seats, Function.update_apply]
  split
  · rename_i hj
    rw [hj]
  · simp

@[simp] theorem amendAt_names (i : Fin n) (f : Info → Info) : (r.amendAt i f).names = r.names := by
  refine List.filterMap_congr fun j _ => ?_
  rw [amendAt, amend_seats]
  cases r.seats j <;> rfl

/-! ## One after the other -/

/-- Who sits in the seat is told something. -/
def tellSeat [DecidableEq Client] (m : Fin n → Occupant Client Name Info → Option Msg)
    (r : Room n Client Name Info Msg) (i : Fin n) : Room n Client Name Info Msg :=
  match r.seats i with
  | none => r
  | some o => match m i o with
    | none => r
    | some msg => r.tell o.client msg

section OneByOne

variable {r} [DecidableEq Client] (m : Fin n → Occupant Client Name Info → Option Msg)

@[simp] theorem tellSeat_seats : (tellSeat m r i).seats = r.seats := by
  unfold tellSeat
  split
  · rfl
  · split <;> rfl

@[simp] theorem foldl_tellSeat_seats (is : List (Fin n)) :
    (is.foldl (tellSeat m) r).seats = r.seats := by
  induction is generalizing r with
  | nil => rfl
  | cons j is ih => rw [List.foldl_cons, ih, tellSeat_seats]

theorem seatOf_congr {r' : Room n Client Name Info Msg} (h : r'.seats = r.seats) (c : Client) :
    r'.seatOf c = r.seatOf c := by
  rw [seatOf, h, seatOf]

theorem tellSeat_heard (j : Fin n) (c : Client) : (tellSeat m r j).heard c = r.heard c ++
    if r.seatOf c = some j then ((r.seats j).bind (m j)).toList else [] := by
  cases hj : r.seats j with
  | none => simp [tellSeat, hj]
  | some o =>
    have hc : r.seatOf c = some j ↔ c = o.client := by
      rw [seatOf_eq_some, hj]
      simp [eq_comm]
    simp only [hc, Option.bind_some]
    cases hm : m j o with
    | none => simp [tellSeat, hj, hm]
    | some msg => simp [tellSeat, hj, hm, tell]

/-- To tell the occupants something is to tell them one after the other. -/
theorem foldl_tellSeat : (List.finRange n).foldl (tellSeat m) r = r.tellAll m := by
  have hfold : ∀ is : List (Fin n), is.Nodup → ∀ r : Room n Client Name Info Msg, ∀ c,
      (is.foldl (tellSeat m) r).heard c = r.heard c ++ match r.seatOf c with
        | none => []
        | some i => if i ∈ is then ((r.seats i).bind (m i)).toList else [] := by
    intro is
    induction is with
    | nil =>
      intro _ r c
      cases r.seatOf c <;> simp
    | cons j is ih =>
      intro hnodup r c
      obtain ⟨hj, hrest⟩ := List.nodup_cons.1 hnodup
      rw [List.foldl_cons, ih hrest, tellSeat_heard, seatOf_congr (tellSeat_seats m),
        tellSeat_seats, List.append_assoc]
      congr 1
      cases r.seatOf c with
      | none => rfl
      | some i =>
        by_cases hij : i = j
        · subst hij
          simp [hj]
        · simp [hij]
  refine Room.ext (foldl_tellSeat_seats m _) ?_
  funext c
  rw [hfold _ (List.nodup_finRange n), tellAll, tellBy_heard]
  congr 1
  cases r.seatOf c with
  | none => rfl
  | some i => simp

end OneByOne

end Room

end ChatMultithread.Lib
