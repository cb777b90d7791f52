import Mathlib.Algebra.Ring.Nat
import Mathlib.Data.List.Basic

/-!
# Lines of escaped, separated fields

A line ends at a terminator and consists of fields between separators; an escape takes the
element behind it for literal, whatever that is. `tokens` reads a line, `fields` cuts its tokens
at the separators and `text` is what a field stands for. A line without an escape is read back
as it was written, and only an escape can put a terminator or a separator into a field.
-/

namespace ChatMultithread.Lib

variable {α : Type}

/-- The elements with a meaning of their own. -/
structure Marks (α : Type) where
  terminator : α
  escape : α
  separator : α

/-- The element stands for itself. -/
def Marks.Plain (m : Marks α) (b : α) : Prop :=
  b ≠ m.terminator ∧ b ≠ m.escape ∧ b ≠ m.separator

instance [DecidableEq α] (m : Marks α) (b : α) : Decidable (m.Plain b) :=
  inferInstanceAs (Decidable (_ ∧ _ ∧ _))

/-- What a reader of a line sees at one place. -/
inductive Token (α : Type) where
  | plain (b : α)
  | escaped (e : α)
  | separator
  deriving DecidableEq

/-- The first field and the others. -/
def fields : List (Token α) → List (Token α) × List (List (Token α))
  | [] => ([], [])
  | .separator :: ts => ([], (fields ts).1 :: (fields ts).2)
  | t :: ts => (t :: (fields ts).1, (fields ts).2)

/-- What a token stands for, with `unescape` for the meaning of the escapes. -/
def Token.value (unescape : α → α) : Token α → Option α
  | .plain b => some b
  | .escaped e => some (unescape e)
  | .separator => none

/-- What a field stands for. -/
def text (unescape : α → α) (field : List (Token α)) : List α :=
  field.filterMap (Token.value unescape)

@[simp] theorem fields_nil : fields ([] : List (Token α)) = ([], []) := rfl
@[simp] theorem fields_separator (ts : List (Token α)) :
    fields (.separator :: ts) = ([], (fields ts).1 :: (fields ts).2) := rfl
@[simp] theorem fields_plain (b : α) (ts : List (Token α)) :
    fields (.plain b :: ts) = (.plain b :: (fields ts).1, (fields ts).2) := rfl
@[simp] theorem fields_escaped (e : α) (ts : List (Token α)) :
    fields (.escaped e :: ts) = (.escaped e :: (fields ts).1, (fields ts).2) := rfl

@[simp] theorem text_nil (f : α → α) : text f [] = [] := rfl
@[simp] theorem text_plain (f : α → α) (b : α) (ts : List (Token α)) :
    text f (.plain b :: ts) = b :: text f ts := rfl
@[simp] theorem text_escaped (f : α → α) (e : α) (ts : List (Token α)) :
    text f (.escaped e :: ts) = f e :: text f ts := rfl

@[simp] theorem text_map_plain (f : α → α) (w : List α) : text f (w.map .plain) = w := by
  induction w with
  | nil => rfl
  | cons b w ih => rw [List.map_cons, text_plain, ih]

theorem length_text_le (f : α → α) (ts : List (Token α)) : (text f ts).length ≤ ts.length :=
  List.length_filterMap_le _ _

/-- No field is longer than the line's tokens. -/
theorem length_field_le (ts : List (Token α)) :
    (fields ts).1.length ≤ ts.length ∧ ∀ f ∈ (fields ts).2, f.length ≤ ts.length := by
  induction ts with
  | nil => simp
  | cons t ts ih =>
    cases t with
    | separator =>
      refine ⟨Nat.zero_le _, fun f hf => ?_⟩
      rcases List.mem_cons.1 hf with rfl | hf
      · exact Nat.le_succ_of_le ih.1
      · exact Nat.le_succ_of_le (ih.2 f hf)
    | plain b | escaped b =>
      exact ⟨Nat.succ_le_succ ih.1, fun f hf => Nat.le_succ_of_le (ih.2 f hf)⟩

/-- The tokens of a field are tokens of the line. -/
theorem mem_of_mem_field (ts : List (Token α)) (t : Token α) :
    (t ∈ (fields ts).1 → t ∈ ts) ∧ ∀ f ∈ (fields ts).2, t ∈ f → t ∈ ts := by
  induction ts with
  | nil => simp
  | cons u ts ih =>
    cases u with
    | separator =>
      refine ⟨fun h => absurd h (List.not_mem_nil), fun f hf ht => ?_⟩
      rcases List.mem_cons.1 hf with rfl | hf
      · exact List.mem_cons_of_mem _ (ih.1 ht)
      · exact List.mem_cons_of_mem _ (ih.2 f hf ht)
    | plain b | escaped b =>
      refine ⟨fun h => ?_, fun f hf ht => List.mem_cons_of_mem _ (ih.2 f hf ht)⟩
      rcases List.mem_cons.1 h with rfl | h
      · exact List.mem_cons_self
      · exact List.mem_cons_of_mem _ (ih.1 h)

/-- No field has a separator in it. -/
theorem separator_not_mem_field (ts : List (Token α)) :
    .separator ∉ (fields ts).1 ∧ ∀ f ∈ (fields ts).2, .separator ∉ f := by
  induction ts with
  | nil => simp
  | cons t ts ih =>
    cases t with
    | separator =>
      refine ⟨List.not_mem_nil, fun f hf => ?_⟩
      rcases List.mem_cons.1 hf with rfl | hf
      · exact ih.1
      · exact ih.2 f hf
    | plain b | escaped b =>
      refine ⟨fun h => ?_, ih.2⟩
      rcases List.mem_cons.1 h with h | h
      · cases h
      · exact ih.1 h

/-- Each token of a field stands for one element. -/
theorem text_take (f : α → α) {ts : List (Token α)} (h : .separator ∉ ts) (n : Nat) :
    text f (ts.take n) = (text f ts).take n := by
  induction ts generalizing n with
  | nil => simp
  | cons t ts ih =>
    obtain ⟨ht, hts⟩ := not_or.1 (List.mem_cons.not.1 h)
    cases n with
    | zero => rfl
    | succ n =>
      cases t with
      | separator => exact absurd rfl ht
      | plain b | escaped b => simp [ih hts]

/-- Tokens without a separator in front of a line belong to its first field. -/
theorem fields_append {ts : List (Token α)} (hts : .separator ∉ ts) (us : List (Token α)) :
    fields (ts ++ us) = (ts ++ (fields us).1, (fields us).2) := by
  induction ts with
  | nil => rfl
  | cons t ts ih =>
    obtain ⟨ht, hts'⟩ := not_or.1 (List.mem_cons.not.1 hts)
    cases t with
    | separator => exact absurd rfl ht
    | plain b | escaped b => simp [ih hts']

theorem fields_map_plain_append (w : List α) (ts : List (Token α)) :
    fields (w.map .plain ++ ts) = (w.map .plain ++ (fields ts).1, (fields ts).2) :=
  fields_append (by simp) ts

/-! ## Reading a line -/

variable [DecidableEq α]

/-- The tokens of a line, up to its terminator. An escape at the very end stands for nothing. -/
def tokens (m : Marks α) : List α → List (Token α)
  | [] => []
  | b :: rest =>
      if b = m.terminator then []
      else if b = m.escape then
        match rest with
        | [] => []
        | e :: rest => .escaped e :: tokens m rest
      else if b = m.separator then .separator :: tokens m rest
      else .plain b :: tokens m rest

variable {m : Marks α}

@[simp] theorem tokens_nil : tokens m [] = [] := rfl

@[simp] theorem tokens_terminator (rest : List α) : tokens m (m.terminator :: rest) = [] := by
  rw [tokens.eq_def]
  simp

theorem tokens_escape (hm : m.escape ≠ m.terminator) (e : α) (rest : List α) :
    tokens m (m.escape :: e :: rest) = .escaped e :: tokens m rest := by
  rw [tokens.eq_def]
  simp [hm]

theorem tokens_lone_escape (hm : m.escape ≠ m.terminator) : tokens m [m.escape] = [] := by
  rw [tokens.eq_def]
  simp [hm]

theorem tokens_separator (hm : m.separator ≠ m.terminator ∧ m.separator ≠ m.escape)
    (rest : List α) : tokens m (m.separator :: rest) = .separator :: tokens m rest := by
  rw [tokens.eq_def]
  simp [hm]

theorem tokens_plain {b : α} (hb : m.Plain b) (rest : List α) :
    tokens m (b :: rest) = .plain b :: tokens m rest := by
  rw [tokens.eq_def]
  simp [hb.1, hb.2.1, hb.2.2]

/-- A reader sees no more tokens than the line has elements. -/
theorem length_tokens_le (line : List α) : (tokens m line).length ≤ line.length := by
  induction line using tokens.induct (m := m) with
  | case1 => exact Nat.le_refl _
  | case2 rest => simp
  | case3 h => simp [tokens_lone_escape h]
  | case4 e rest h ih =>
    rw [tokens_escape h]
    simp only [List.length_cons]
    omega
  | case5 rest h h' ih =>
    rw [tokens_separator ⟨h, h'⟩]
    exact Nat.succ_le_succ ih
  | case6 b rest h h' h'' ih =>
    rw [tokens_plain ⟨h, h', h''⟩]
    exact Nat.succ_le_succ ih

/-- An element that a reader sees as plain is. -/
theorem plain_of_mem_tokens {line : List α} {b : α} (hb : Token.plain b ∈ tokens m line) :
    m.Plain b := by
  induction line using tokens.induct (m := m) with
  | case1 => cases hb
  | case2 rest => simp at hb
  | case3 h => simp [tokens_lone_escape h] at hb
  | case4 e rest h ih =>
    rw [tokens_escape h] at hb
    exact ih (by simpa using hb)
  | case5 rest h h' ih =>
    rw [tokens_separator ⟨h, h'⟩] at hb
    exact ih (by simpa using hb)
  | case6 c rest h h' h'' ih =>
    rw [tokens_plain ⟨h, h', h''⟩] at hb
    rcases List.mem_cons.1 hb with hbc | hb
    · cases hbc
      exact ⟨h, h', h''⟩
    · exact ih hb

/-- Plain elements are read as they are. -/
theorem tokens_append {w : List α} (hw : ∀ b ∈ w, m.Plain b) (rest : List α) :
    tokens m (w ++ rest) = w.map .plain ++ tokens m rest := by
  induction w with
  | nil => rfl
  | cons b w ih =>
    rw [List.cons_append, tokens_plain (hw b List.mem_cons_self),
      ih fun c hc => hw c (List.mem_cons_of_mem _ hc)]
    rfl

/-- A reader sees only elements of the line. -/
theorem mem_of_mem_tokens {line : List α} {b : α}
    (hb : Token.plain b ∈ tokens m line ∨ Token.escaped b ∈ tokens m line) : b ∈ line := by
  induction line using tokens.induct (m := m) with
  | case1 => simp at hb
  | case2 rest => simp at hb
  | case3 h => simp [tokens_lone_escape h] at hb
  | case4 e rest h ih =>
    rw [tokens_escape h] at hb
    simp only [List.mem_cons, reduceCtorEq, false_or, Token.escaped.injEq] at hb
    rcases hb with hb | rfl | hb
    · exact List.mem_cons_of_mem _ (List.mem_cons_of_mem _ (ih (.inl hb)))
    · exact List.mem_cons_of_mem _ List.mem_cons_self
    · exact List.mem_cons_of_mem _ (List.mem_cons_of_mem _ (ih (.inr hb)))
  | case5 rest h h' ih =>
    rw [tokens_separator ⟨h, h'⟩] at hb
    exact List.mem_cons_of_mem _ (ih (by simpa using hb))
  | case6 c rest h h' h'' ih =>
    rw [tokens_plain ⟨h, h', h''⟩] at hb
    simp only [List.mem_cons, reduceCtorEq, false_or, Token.plain.injEq] at hb
    rcases hb with (rfl | hb) | hb
    · exact List.mem_cons_self
    · exact List.mem_cons_of_mem _ (ih (.inl hb))
    · exact List.mem_cons_of_mem _ (ih (.inr hb))

/-- Only an escape in the line is read as one. -/
theorem escape_mem_of_mem_tokens {line : List α} {e : α} (he : Token.escaped e ∈ tokens m line) :
    m.escape ∈ line := by
  induction line using tokens.induct (m := m) with
  | case1 => simp at he
  | case2 rest => simp at he
  | case3 h => exact List.mem_cons_self
  | case4 e' rest h ih => exact List.mem_cons_self
  | case5 rest h h' ih =>
    rw [tokens_separator ⟨h, h'⟩] at he
    exact List.mem_cons_of_mem _ (ih (by simpa using he))
  | case6 c rest h h' h'' ih =>
    rw [tokens_plain ⟨h, h', h''⟩] at he
    exact List.mem_cons_of_mem _ (ih (by simpa using he))

omit [DecidableEq α] in
/-- A line has one field exactly when no separator is seen in it. -/
theorem fields_eq_nil {ts : List (Token α)} :
    (fields ts).2 = [] ↔ .separator ∉ ts := by
  induction ts with
  | nil => simp
  | cons t ts ih => cases t <;> simp [ih]

omit [DecidableEq α] in
theorem fields_fst_of_not_mem {ts : List (Token α)} (h : .separator ∉ ts) :
    (fields ts).1 = ts := by
  induction ts with
  | nil => rfl
  | cons t ts ih =>
    obtain ⟨ht, hts⟩ := not_or.1 (List.mem_cons.not.1 h)
    cases t with
    | separator => exact absurd rfl ht
    | plain b => rw [fields_plain, ih hts]
    | escaped e => rw [fields_escaped, ih hts]

/-- Without an escape before it, a separator is seen. -/
theorem separator_mem_tokens {w : List α} (hm : m.separator ≠ m.terminator ∧ m.separator ≠ m.escape)
    (hterm : m.terminator ∉ w) (hesc : m.escape ∉ w) (hsep : m.separator ∈ w) (rest : List α) :
    Token.separator ∈ tokens m (w ++ rest) := by
  induction w with
  | nil => cases hsep
  | cons b w ih =>
    obtain ⟨hb, hterm⟩ := not_or.1 (List.mem_cons.not.1 hterm)
    obtain ⟨hb', hesc⟩ := not_or.1 (List.mem_cons.not.1 hesc)
    by_cases hbs : b = m.separator
    · subst hbs
      rw [List.cons_append, tokens_separator hm]
      exact List.mem_cons_self
    · rw [List.cons_append, tokens_plain ⟨Ne.symm hb, Ne.symm hb', hbs⟩]
      refine List.mem_cons_of_mem _ (ih hterm hesc ?_)
      exact (List.mem_cons.1 hsep).resolve_left (Ne.symm hbs)

/-- The text of a line up to the first terminator in it: never longer than what was written, and
    shorter when that contains an escape. -/
theorem length_takeWhile_text (f : α → α) (hf : f m.terminator = m.terminator) (w : List α)
    (hterm : m.terminator ∉ w) :
    ((text f (tokens m (w ++ [m.terminator]))).takeWhile (· ≠ m.terminator)).length ≤ w.length ∧
      (m.escape ∈ w →
        ((text f (tokens m (w ++ [m.terminator]))).takeWhile (· ≠ m.terminator)).length <
          w.length) := by
  induction w using tokens.induct (m := m) with
  | case1 => simp
  | case2 rest => exact absurd List.mem_cons_self hterm
  | case3 h =>
    rw [List.singleton_append, tokens_escape h]
    simp [hf]
  | case4 e rest h ih =>
    have hrest : m.terminator ∉ rest := fun hr =>
      hterm (List.mem_cons_of_mem _ (List.mem_cons_of_mem _ hr))
    have hle := (ih hrest).1
    rw [List.cons_append, List.cons_append, tokens_escape h, text_escaped, List.takeWhile_cons]
    simp only [List.length_cons]
    split
    · rw [List.length_cons]
      exact ⟨by omega, fun _ => by omega⟩
    · exact ⟨by simp, fun _ => by simp⟩
  | case5 rest h h' ih =>
    have hrest : m.terminator ∉ rest := fun hr => hterm (List.mem_cons_of_mem _ hr)
    have htext : text f (.separator :: tokens m (rest ++ [m.terminator])) =
        text f (tokens m (rest ++ [m.terminator])) := rfl
    rw [List.cons_append, tokens_separator ⟨h, h'⟩, htext]
    have hle := (ih hrest).1
    exact ⟨Nat.le_succ_of_le hle, fun _ => Nat.lt_succ_of_le hle⟩
  | case6 b rest h h' h'' ih =>
    have hrest : m.terminator ∉ rest := fun hr => hterm (List.mem_cons_of_mem _ hr)
    rw [List.cons_append, tokens_plain ⟨h, h', h''⟩, text_plain, List.takeWhile_cons_of_pos (by simpa using h)]
    refine ⟨Nat.succ_le_succ (ih hrest).1, fun hesc => Nat.succ_lt_succ ((ih hrest).2 ?_)⟩
    exact (List.mem_cons.1 hesc).resolve_left (Ne.symm h')

/-- A terminator in the text of a field comes from an escape. -/
theorem terminator_mem_text {f : α → α} {field : List (Token α)} {line : List α}
    (hfield : ∀ t ∈ field, t ∈ tokens m line) :
    m.terminator ∈ text f field ↔ ∃ e, Token.escaped e ∈ field ∧ f e = m.terminator := by
  simp only [text, List.mem_filterMap]
  constructor
  · rintro ⟨t, ht, hv⟩
    cases t with
    | plain b =>
      have hb := plain_of_mem_tokens (hfield _ ht)
      exact absurd (Option.some.inj hv) hb.1
    | escaped e => exact ⟨e, ht, Option.some.inj hv⟩
    | separator => cases hv
  · rintro ⟨e, he, hv⟩
    exact ⟨_, he, congrArg some hv⟩

/-! ## Writing a line -/

/-- How an element is written so that a reader takes it for itself, with `code` for the escape that
    stands for the terminator. -/
def Marks.quote (m : Marks α) (code b : α) : List α :=
  if b = m.separator then [m.escape, m.separator]
  else if b = m.escape then [m.escape, m.escape]
  else if b = m.terminator then [m.escape, code]
  else [b]

/-- The escapes mean what `quote` writes them for. -/
structure Quotes (m : Marks α) (f : α → α) (code : α) : Prop where
  escape_ne : m.escape ≠ m.terminator
  separator : f m.separator = m.separator
  escape : f m.escape = m.escape
  terminator : f code = m.terminator

variable {f : α → α} {code : α}

/-- A quoted element is one token that stands for it. -/
theorem Quotes.tokens_quote (h : Quotes m f code) (b : α) (rest : List α) :
    ∃ t, tokens m (m.quote code b ++ rest) = t :: tokens m rest ∧ t ≠ .separator ∧
      t.value f = some b := by
  unfold Marks.quote
  split
  · rename_i hb
    refine ⟨.escaped m.separator, tokens_escape h.escape_ne _ _, nofun, ?_⟩
    rw [hb]
    exact congrArg some h.separator
  · split
    · rename_i hb
      refine ⟨.escaped m.escape, tokens_escape h.escape_ne _ _, nofun, ?_⟩
      rw [hb]
      exact congrArg some h.escape
    · split
      · rename_i hb
        refine ⟨.escaped code, tokens_escape h.escape_ne _ _, nofun, ?_⟩
        rw [hb]
        exact congrArg some h.terminator
      · rename_i h1 h2 h3
        exact ⟨.plain b, tokens_plain ⟨h3, h2, h1⟩ _, nofun, rfl⟩

/-- A quoted field is read as one that stands for what was written. -/
theorem Quotes.tokens_flatMap (h : Quotes m f code) (w rest : List α) :
    ∃ ts, tokens m (w.flatMap (m.quote code) ++ rest) = ts ++ tokens m rest ∧
      .separator ∉ ts ∧ text f ts = w := by
  induction w with
  | nil => exact ⟨[], rfl, List.not_mem_nil, rfl⟩
  | cons b w ih =>
    obtain ⟨ts, hts, hsep, htext⟩ := ih
    obtain ⟨t, ht, htsep, htval⟩ := h.tokens_quote b (w.flatMap (m.quote code) ++ rest)
    refine ⟨t :: ts, ?_, ?_, ?_⟩
    · rw [List.flatMap_cons, List.append_assoc, ht, hts]
      rfl
    · intro hmem
      rcases List.mem_cons.1 hmem with hmem | hmem
      · exact htsep hmem.symm
      · exact hsep hmem
    · rw [text, List.filterMap_cons_some htval]
      exact congrArg _ htext

omit [DecidableEq α] in
theorem text_append (f : α → α) (ts us : List (Token α)) :
    text f (ts ++ us) = text f ts ++ text f us :=
  List.filterMap_append

/-- The fields of a line of quoted fields, as a reader decodes them. -/
theorem Quotes.fields_tokens (h : Quotes m f code)
    (hm : m.separator ≠ m.terminator ∧ m.separator ≠ m.escape) (w : List α)
    (args : List (List α)) :
    let ts := fields (tokens m (w.flatMap (m.quote code) ++
      (args.flatMap (fun a => m.separator :: a.flatMap (m.quote code)) ++ [m.terminator])))
    text f ts.1 = w ∧ ts.2.map (text f) = args := by
  induction args generalizing w with
  | nil =>
    obtain ⟨ts, hts, hsep, htext⟩ := h.tokens_flatMap w [m.terminator]
    dsimp only
    rw [List.flatMap_nil, List.nil_append, hts, tokens_terminator, fields_append hsep]
    simp [htext]
  | cons a args ih =>
    obtain ⟨ts, hts, hsep, htext⟩ := h.tokens_flatMap w
      ((a :: args).flatMap (fun a => m.separator :: a.flatMap (m.quote code)) ++ [m.terminator])
    obtain ⟨ih1, ih2⟩ := ih a
    dsimp only
    rw [hts, fields_append hsep, List.flatMap_cons, List.append_assoc, List.cons_append,
      tokens_separator hm, fields_separator]
    refine ⟨?_, ?_⟩
    · rw [text_append, htext]
      simp
    · rw [List.map_cons, ih1, ih2]

/-! ## How much of a line its tokens take -/

def Token.isEscaped : Token α → Bool
  | .escaped _ => true
  | _ => false

/-- An escape takes two elements of the line and every other token one, as long as no escape
    reaches the terminator. -/
theorem length_tokens_add {w : List α} (hterm : m.terminator ∉ w)
    (hend : Token.escaped m.terminator ∉ tokens m (w ++ [m.terminator])) :
    (tokens m (w ++ [m.terminator])).length +
      (tokens m (w ++ [m.terminator])).countP Token.isEscaped = w.length := by
  induction w using tokens.induct (m := m) with
  | case1 => simp
  | case2 rest => exact absurd List.mem_cons_self hterm
  | case3 h =>
    rw [List.singleton_append, tokens_escape h] at hend
    exact absurd List.mem_cons_self hend
  | case4 e rest h ih =>
    have hrest : m.terminator ∉ rest := fun hr =>
      hterm (List.mem_cons_of_mem _ (List.mem_cons_of_mem _ hr))
    rw [List.cons_append, List.cons_append, tokens_escape h] at hend ⊢
    have hcount := ih hrest fun hmem => hend (List.mem_cons_of_mem _ hmem)
    simp only [List.length_cons, List.countP_cons, Token.isEscaped, if_true]
    omega
  | case5 rest h h' ih =>
    have hrest : m.terminator ∉ rest := fun hr => hterm (List.mem_cons_of_mem _ hr)
    rw [List.cons_append, tokens_separator ⟨h, h'⟩] at hend ⊢
    have hcount := ih hrest fun hmem => hend (List.mem_cons_of_mem _ hmem)
    simp only [List.length_cons, List.countP_cons, Token.isEscaped, Bool.false_eq_true, if_false]
    omega
  | case6 b rest h h' h'' ih =>
    have hrest : m.terminator ∉ rest := fun hr => hterm (List.mem_cons_of_mem _ hr)
    rw [List.cons_append, tokens_plain ⟨h, h', h''⟩] at hend ⊢
    have hcount := ih hrest fun hmem => hend (List.mem_cons_of_mem _ hmem)
    simp only [List.length_cons, List.countP_cons, Token.isEscaped, Bool.false_eq_true, if_false]
    omega

/-- An escape in a line is read as one. -/
theorem escaped_mem_tokens {w : List α} (hterm : m.terminator ∉ w) (hesc : m.escape ∈ w) :
    ∃ e, Token.escaped e ∈ tokens m (w ++ [m.terminator]) := by
  induction w using tokens.induct (m := m) with
  | case1 => cases hesc
  | case2 rest => exact absurd List.mem_cons_self hterm
  | case3 h =>
    rw [List.singleton_append, tokens_escape h]
    exact ⟨_, List.mem_cons_self⟩
  | case4 e rest h ih =>
    rw [List.cons_append, List.cons_append, tokens_escape h]
    exact ⟨_, List.mem_cons_self⟩
  | case5 rest h h' ih =>
    obtain ⟨e, he⟩ := ih (fun hr => hterm (List.mem_cons_of_mem _ hr))
      ((List.mem_cons.1 hesc).resolve_left (Ne.symm h'))
    rw [List.cons_append, tokens_separator ⟨h, h'⟩]
    exact ⟨e, List.mem_cons_of_mem _ he⟩
  | case6 b rest h h' h'' ih =>
    obtain ⟨e, he⟩ := ih (fun hr => hterm (List.mem_cons_of_mem _ hr))
      ((List.mem_cons.1 hesc).resolve_left (Ne.symm h'))
    rw [List.cons_append, tokens_plain ⟨h, h', h''⟩]
    exact ⟨e, List.mem_cons_of_mem _ he⟩

/-- In a line without escapes every separator is seen. -/
theorem length_fields_tokens {w : List α}
    (hm : m.separator ≠ m.terminator ∧ m.separator ≠ m.escape) (hterm : m.terminator ∉ w)
    (hesc : m.escape ∉ w) :
    (fields (tokens m (w ++ [m.terminator]))).2.length = w.count m.separator := by
  induction w with
  | nil => simp
  | cons b w ih =>
    obtain ⟨hb, hterm⟩ := not_or.1 (List.mem_cons.not.1 hterm)
    obtain ⟨hb', hesc⟩ := not_or.1 (List.mem_cons.not.1 hesc)
    by_cases hbs : b = m.separator
    · rw [hbs, List.cons_append, tokens_separator hm, fields_separator, List.length_cons,
        List.count_cons_self, ih hterm hesc]
    · rw [List.cons_append, tokens_plain ⟨Ne.symm hb, Ne.symm hb', hbs⟩, fields_plain,
        List.count_cons_of_ne hbs]
      exact ih hterm hesc

omit [DecidableEq α] in
/-- Every token of a line is a separator or stands for one element of a field. -/
theorem length_text_fields (f : α → α) (ts : List (Token α)) :
    (text f (fields ts).1).length + ((fields ts).2.map fun w => (text f w).length + 1).sum =
      ts.length := by
  induction ts with
  | nil => rfl
  | cons t ts ih =>
    cases t with
    | separator =>
      simp only [fields_separator, text_nil, List.length_nil, List.map_cons, List.sum_cons,
        List.length_cons]
      omega
    | plain b | escaped b =>
      simp only [fields_plain, fields_escaped, text_plain, text_escaped, List.length_cons]
      omega

omit [DecidableEq α] in
/-- A token that is not a separator stands in a field. -/
theorem mem_field_of_mem {ts : List (Token α)} {t : Token α} (ht : t ∈ ts)
    (hsep : t ≠ .separator) : t ∈ (fields ts).1 ∨ ∃ f ∈ (fields ts).2, t ∈ f := by
  induction ts with
  | nil => cases ht
  | cons u ts ih =>
    cases u with
    | separator =>
      rcases ih ((List.mem_cons.1 ht).resolve_left hsep) with h | ⟨f, hf, h⟩
      · exact .inr ⟨_, List.mem_cons_self, h⟩
      · exact .inr ⟨f, List.mem_cons_of_mem _ hf, h⟩
    | plain b | escaped b =>
      rcases List.mem_cons.1 ht with rfl | ht
      · exact .inl List.mem_cons_self
      · exact (ih ht).imp_left fun h => List.mem_cons_of_mem _ h

end ChatMultithread.Lib
