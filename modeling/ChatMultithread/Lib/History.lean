import Mathlib.Data.List.Forall2

/-!
# Logs whose entries are justified by their past

A log keeps its newest entry in front. `Justified P` says of every entry that `P` holds of it and
of the log as it was when the entry was written; it is proved entry by entry, as the log grows,
and read off at any entry.
-/

namespace ChatMultithread.Lib

variable {E : Type} {P Q : List E → E → Prop} {e : E} {new past post : List E}

/-- `P` holds of every entry and the log before it. -/
def Justified (P : List E → E → Prop) : List E → Prop
  | [] => True
  | e :: past => P past e ∧ Justified P past

@[simp] theorem justified_nil : Justified P [] := trivial

@[simp] theorem justified_cons : Justified P (e :: past) ↔ P past e ∧ Justified P past := Iff.rfl

theorem Justified.of_append (h : Justified P (post ++ past)) : Justified P past := by
  induction post with
  | nil => exact h
  | cons e post ih => exact ih h.2

/-- What holds of an entry and its past. -/
theorem Justified.entry (h : Justified P (post ++ e :: past)) : P past e :=
  h.of_append.1

theorem Justified.mono (hPQ : ∀ past e, P past e → Q past e) {log : List E}
    (h : Justified P log) : Justified Q log := by
  induction log with
  | nil => trivial
  | cons e past ih => exact ⟨hPQ past e h.1, ih h.2⟩

/-- A block of new entries is justified when each is, whatever part of the block is before it. -/
theorem Justified.append (h : Justified P past)
    (hnew : ∀ e ∈ new, ∀ between, (∀ e' ∈ between, e' ∈ new) → P (between ++ past) e) :
    Justified P (new ++ past) := by
  suffices hpart : ∀ part, (∀ e ∈ part, e ∈ new) → Justified P (part ++ past) from
    hpart new fun _ he => he
  intro part
  induction part with
  | nil => exact fun _ => h
  | cons e part ih =>
    intro hpart
    have hrest : ∀ e' ∈ part, e' ∈ new := fun e' he' => hpart e' (List.mem_cons_of_mem _ he')
    exact ⟨hnew e (hpart e List.mem_cons_self) part hrest, ih hrest⟩

/-- A conjunction is justified when both its parts are. -/
theorem Justified.and {log : List E} (hP : Justified P log) (hQ : Justified Q log) :
    Justified (fun past e => P past e ∧ Q past e) log := by
  induction log with
  | nil => trivial
  | cons e past ih => exact ⟨⟨hP.1, hQ.1⟩, ih hP.2 hQ.2⟩

/-- An entry of the log stands somewhere in it. -/
theorem Justified.of_mem {log : List E} (h : Justified P log) (he : e ∈ log) :
    ∃ post past, log = post ++ e :: past ∧ P past e := by
  obtain ⟨post, past, rfl⟩ := List.append_of_mem he
  exact ⟨post, past, rfl, h.entry⟩

/-! ## What is said in answer to what

`List.SublistForall₂ R said heard` matches everything said with something heard, in order and each
with its own. -/

section Answers

variable {α β : Type} {R : α → β → Prop} {said : List α} {heard : List β}

/-- What is heard need not be answered. -/
theorem sublistForall₂_skip (h : List.SublistForall₂ R said heard) (more : List β) :
    List.SublistForall₂ R said (heard ++ more) := by
  obtain ⟨l, hmatch, hsub⟩ := List.sublistForall₂_iff.1 h
  apply List.sublistForall₂_iff.2
  exact ⟨l, hmatch, hsub.trans (List.sublist_append_left heard more)⟩

/-- The next thing said answers the next thing heard. -/
theorem sublistForall₂_snoc (h : List.SublistForall₂ R said heard) {a : α} {b : β} (hab : R a b) :
    List.SublistForall₂ R (said ++ [a]) (heard ++ [b]) := by
  obtain ⟨l, hmatch, hsub⟩ := List.sublistForall₂_iff.1 h
  apply List.sublistForall₂_iff.2
  exact ⟨l ++ [b], List.rel_append hmatch (.cons hab .nil), hsub.append (List.Sublist.refl [b])⟩

/-- As many answers as there is to answer leave nothing out. -/
theorem forall₂_of_sublistForall₂ (h : List.SublistForall₂ R said heard)
    (hlen : said.length = heard.length) : List.Forall₂ R said heard := by
  obtain ⟨l, hmatch, hsub⟩ := List.sublistForall₂_iff.1 h
  rw [← hsub.eq_of_length (hmatch.length_eq.symm.trans hlen)]
  exact hmatch

end Answers

end ChatMultithread.Lib
