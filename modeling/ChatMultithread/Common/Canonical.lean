import ChatMultithread.Common.Builders
import ChatMultithread.Common.Fields

/-!
# Lines with escaped fields

A field in which separators, backslashes and newlines are escaped reaches the server as it was. No
sender in the repository escapes, but `parse_message` decodes what such a sender would write.
-/

namespace ChatMultithread

open Lib

/-- A separator, a backslash or a newline is written as a backslash and the separator, a backslash
    or the letter `n`; every other byte is written as it is. -/
def esc (s : Bytes) : Bytes := s.flatMap (marks.quote 110)

/-- A word and arguments, escaped, between separators and in front of a newline. -/
def escapedLine (word : Bytes) (args : List Bytes) : Bytes :=
  esc word ++ args.flatMap (fun a => fieldSepChar :: esc a) ++ [msgTerminatorChar]

/-- The words that `parse_message` knows, and the types it stores for them. -/
def commandWords : List (Bytes × CommandType) :=
  [(ascii "REGISTER", .register), (ascii "LIST", .list), (ascii "INFO", .info),
    (ascii "STATUS", .status), (ascii "MSG", .msg), (ascii "BROADCAST", .broadcast),
    (ascii "QUIT", .quit)]

/-- The code and the type that a word is to give: 0 and its type for a known one, and -1 and
    `CMD_TYPE_INVALID` otherwise. -/
def wordResult (word : Bytes) : Int × CommandType :=
  match commandWords.lookup word with
  | some type => (0, type)
  | none => (-1, .invalid)

theorem commandType_known : ∀ p ∈ commandWords, commandType p.1 = p.2 := by decide

theorem commandType_unknown {word : Bytes} (h : ∀ p ∈ commandWords, p.1 ≠ word) :
    commandType word = .invalid := by
  simp only [commandWords, List.forall_mem_cons] at h
  simp only [commandType, h.1.symm, h.2.1.symm, h.2.2.1.symm, h.2.2.2.1.symm, h.2.2.2.2.1.symm,
    h.2.2.2.2.2.1.symm, h.2.2.2.2.2.2.1.symm, if_false]

/-- Only the word itself gives its type. -/
theorem commandType_eq_iff {p : Bytes × CommandType} (hp : p ∈ commandWords) {word : Bytes} :
    commandType word = p.2 ↔ word = p.1 := by
  constructor
  · intro h
    by_cases hknown : ∃ q ∈ commandWords, q.1 = word
    · obtain ⟨q, hq, hword⟩ := hknown
      have hinj : ∀ p ∈ commandWords, ∀ q ∈ commandWords, q.2 = p.2 → q.1 = p.1 := by decide
      rw [← hword, commandType_known q hq] at h
      rw [← hword]
      exact hinj p hp q hq h
    · have hvalid : ∀ p ∈ commandWords, p.2 ≠ .invalid := by decide
      rw [commandType_unknown fun q hq hword => hknown ⟨q, hq, hword⟩] at h
      exact absurd h.symm (hvalid p hp)
  · intro h
    rw [h]
    exact commandType_known p hp

theorem wordResult_eq (word : Bytes) :
    wordResult word = (if commandType word = .invalid then -1 else 0, commandType word) := by
  have hknown : ∀ p ∈ commandWords, wordResult p.1 =
      (if commandType p.1 = .invalid then -1 else 0, commandType p.1) := by decide
  by_cases h : ∃ p ∈ commandWords, p.1 = word
  · obtain ⟨p, hp, hword⟩ := h
    rw [← hword]
    exact hknown p hp
  · have hne : ∀ p ∈ commandWords, p.1 ≠ word := fun p hp hword => h ⟨p, hp, hword⟩
    have hlookup : commandWords.lookup word = none :=
      List.lookup_eq_none_iff.2 fun p hp => by simpa using (hne p hp).symm
    rw [wordResult, hlookup, commandType_unknown hne]
    rfl

theorem quotes_marks : Quotes marks unescape 110 where
  escape_ne := by decide
  separator := by decide
  escape := by decide
  terminator := by decide

/-- The fields of an escaped line are what was escaped. -/
theorem rawFields_escapedLine (word : Bytes) (args : List Bytes) :
    text unescape (rawFields (escapedLine word args)).1 = word ∧
      (rawFields (escapedLine word args)).2.map (text unescape) = args := by
  have h := quotes_marks.fields_tokens (by decide) word args
  have hline : escapedLine word args = word.flatMap (marks.quote 110) ++
      (args.flatMap (fun a => marks.separator :: a.flatMap (marks.quote 110)) ++
        [marks.terminator]) := List.append_assoc _ _ _
  rw [rawFields, hline]
  exact h

/-- Up to two escaped arguments are parsed to themselves. -/
theorem parseMessage_escaped {word : Bytes} {args : List Bytes} (hargs : args.length < 3)
    (hlen : (escapedLine word args).length ≤ maxMsg - 1) :
    parseMessage (escapedLine word args) = some ((wordResult word).1,
      ⟨(wordResult word).2, args.getD 0 [], args.getD 1 [], escapedLine word args⟩) := by
  obtain ⟨hword, hfields⟩ := rawFields_escapedLine word args
  have hin : InBounds (escapedLine word args) := by
    rw [InBounds, ← List.length_map (text unescape), hfields]
    exact hargs
  have hfield : ∀ k, field (escapedLine word args) (k + 1) = args.getD k [] := by
    intro k
    rw [field_succ, hfields]
  have hcommand : lineCommand (escapedLine word args) = commandType word := by
    rw [lineCommand, field, rawField, hword]
  rw [parseMessage_eq (Nat.lt_of_le_pred (by decide) hlen), if_pos hin, wordResult_eq, lineMessage,
    hcommand, hfield, hfield]

/-- The parser inverts the escaping, with two arguments, with one and without. -/
theorem parseMessage_escapedLine (w a b : Bytes) :
    ((escapedLine w [a, b]).length ≤ maxMsg - 1 →
      parseMessage (escapedLine w [a, b]) =
        some ((wordResult w).1, ⟨(wordResult w).2, a, b, escapedLine w [a, b]⟩)) ∧
    ((escapedLine w [a]).length ≤ maxMsg - 1 →
      parseMessage (escapedLine w [a]) =
        some ((wordResult w).1, ⟨(wordResult w).2, a, [], escapedLine w [a]⟩)) ∧
    ((escapedLine w []).length ≤ maxMsg - 1 →
      parseMessage (escapedLine w []) =
        some ((wordResult w).1, ⟨(wordResult w).2, [], [], escapedLine w []⟩)) :=
  ⟨fun h => parseMessage_escaped (by simp) h, fun h => parseMessage_escaped (by simp) h,
    fun h => parseMessage_escaped (by simp) h⟩

/-- A text with a separator and a backslash in it. -/
theorem parseMessage_escapedLine_msg :
    parseMessage (ascii "MSG|ana|a\\|b\\\\\n") =
      some (0, ⟨.msg, ascii "ana", ascii "a|b\\", ascii "MSG|ana|a\\|b\\\\\n"⟩) := by
  have hline : escapedLine (ascii "MSG") [ascii "ana", ascii "a|b\\"] =
      ascii "MSG|ana|a\\|b\\\\\n" := by decide
  have h := (parseMessage_escapedLine (ascii "MSG") (ascii "ana") (ascii "a|b\\")).1
  rw [hline] at h
  exact h (by decide)

/-! ## Lines that are not escaped -/

/-- Plain bytes are written as they are. -/
theorem esc_of_plain {s : Bytes} (h : ∀ b ∈ s, marks.Plain b) : esc s = s := by
  induction s with
  | nil => rfl
  | cons b s ih =>
    obtain ⟨hterm, hesc, hsep⟩ := h b List.mem_cons_self
    rw [esc, List.flatMap_cons, Marks.quote, if_neg hsep, if_neg hesc, if_neg hterm]
    exact congrArg (b :: ·) (ih fun c hc => h c (List.mem_cons_of_mem _ hc))

theorem escapedLine_of_plain {word : Bytes} {args : List Bytes} (hword : ∀ b ∈ word, marks.Plain b)
    (hargs : ∀ a ∈ args, ∀ b ∈ a, marks.Plain b) : escapedLine word args = lineOf word args := by
  have hflat : args.flatMap (fun a => fieldSepChar :: esc a) =
      args.flatMap (fieldSepChar :: ·) := by
    rw [List.flatMap_def, List.flatMap_def]
    exact congrArg List.flatten (List.map_congr_left fun a ha => by rw [esc_of_plain (hargs a ha)])
  rw [escapedLine, lineOf, esc_of_plain hword, hflat]

/-- Lists of at most two strings that agree at both places and whose lengths add up are of the same
    length, when the second one has no empty string. -/
theorem length_eq_of_getD {xs args : List Bytes} {n : Nat} (hxs : xs.length < 3)
    (hargs : args.length < 3) (hne : ∀ a ∈ args, a ≠ []) (h0 : xs.getD 0 [] = args.getD 0 [])
    (h1 : xs.getD 1 [] = args.getD 1 [])
    (hsum : (xs.map fun x => x.length + 1).sum + n = (args.map fun a => a.length + 1).sum) :
    xs.length = args.length ∧ n = 0 := by
  rcases args with _ | ⟨a, _ | ⟨b, _ | ⟨c, args⟩⟩⟩
  · rcases xs with _ | ⟨x, xs⟩
    · simpa using hsum
    · simp at hsum
  · have ha : a ≠ [] := hne a List.mem_cons_self
    rcases xs with _ | ⟨x, _ | ⟨y, xs⟩⟩
    · exact absurd h0.symm ha
    · simp only [List.getD_cons_zero] at h0
      simp [h0] at hsum
      exact ⟨rfl, hsum⟩
    · simp only [List.getD_cons_zero] at h0
      simp [h0] at hsum
      omega
  · have ha : a ≠ [] := hne a List.mem_cons_self
    have hb : b ≠ [] := hne b (List.mem_cons_of_mem _ List.mem_cons_self)
    rcases xs with _ | ⟨x, _ | ⟨y, _ | ⟨z, xs⟩⟩⟩
    · exact absurd h0.symm ha
    · exact absurd h1.symm hb
    · simp only [List.getD_cons_zero, List.getD_cons_succ] at h0 h1
      simp [h0, h1] at hsum
      exact ⟨rfl, hsum⟩
    · simp only [List.length_cons] at hxs
      omega
  · simp only [List.length_cons] at hargs
    omega

/-- What holds of every string of the one list holds of every string of the other. -/
theorem forall_mem_of_getD {xs args : List Bytes} {p : Bytes → Prop} (hxs : xs.length < 3)
    (h0 : xs.getD 0 [] = args.getD 0 []) (h1 : xs.getD 1 [] = args.getD 1 []) (hnil : p [])
    (hargs : ∀ a ∈ args, p a) : ∀ x ∈ xs, p x := by
  have hget : ∀ k, p (args.getD k []) := by
    intro k
    rw [List.getD_eq_getElem?_getD]
    cases hk : args[k]? with
    | none => exact hnil
    | some a => exact hargs a (List.mem_of_getElem? hk)
  intro x hx
  obtain ⟨k, hk, hkx⟩ := List.getElem_of_mem hx
  have hgetD : xs.getD k [] = x := by
    rw [List.getD_eq_getElem?_getD, List.getElem?_eq_getElem hk, hkx]
    rfl
  rw [← hgetD]
  have hcases : k = 0 ∨ k = 1 := by omega
  rcases hcases with rfl | rfl
  · rw [h0]
    exact hget 0
  · rw [h1]
    exact hget 1

/-- As many summands of at least one as their sum are all one. -/
theorem eq_zero_of_sum {args : List Bytes} {c : Bytes → Nat}
    (h : args.length = (args.map fun a => c a + 1).sum) : ∀ a ∈ args, c a = 0 := by
  induction args with
  | nil => exact List.forall_mem_nil _
  | cons a args ih =>
    have hle : ∀ args : List Bytes, args.length ≤ (args.map fun a => c a + 1).sum := by
      intro args
      induction args with
      | nil => exact Nat.le_refl _
      | cons a args ih =>
        rw [List.map_cons, List.sum_cons, List.length_cons]
        omega
    have hrest := hle args
    rw [List.map_cons, List.sum_cons, List.length_cons] at h
    rw [List.forall_mem_cons]
    exact ⟨by omega, ih (by omega)⟩

theorem count_lineBodyOf (word : Bytes) (args : List Bytes) :
    (lineBodyOf word args).count fieldSepChar =
      word.count fieldSepChar + (args.map fun a => a.count fieldSepChar + 1).sum := by
  simp [lineBodyOf, List.count_append, List.count_flatMap, Function.comp_def]

theorem length_lineBodyOf (word : Bytes) (args : List Bytes) :
    (lineBodyOf word args).length = word.length + (args.map fun a => a.length + 1).sum := by
  simp [lineBodyOf, List.length_flatMap]

variable {word : Bytes} {args : List Bytes}

/-- A line that is decoded to what it was built of has no escape in it, and no more separators than
    the builder put there: its tokens take up all of the line, an escape would take two bytes for
    one, and there are as many fields as arguments at least because no argument is empty. -/
theorem plain_of_decoded (hword : ∀ b ∈ word, marks.Plain b) (hlen : args.length < 3)
    (hargs : ∀ a ∈ args, a ≠ [] ∧ msgTerminatorChar ∉ a) (hin : InBounds (lineOf word args))
    (h0 : field (lineOf word args) 0 = word)
    (h1 : field (lineOf word args) 1 = args.getD 0 [])
    (h2 : field (lineOf word args) 2 = args.getD 1 []) :
    ∀ a ∈ args, fieldSepChar ∉ a ∧ escapeChar ∉ a := by
  have hwordnl : msgTerminatorChar ∉ word := fun h => (hword _ h).1 rfl
  have hwordsep : fieldSepChar ∉ word := fun h => (hword _ h).2.2 rfl
  have hbody : marks.terminator ∉ lineBodyOf word args :=
    not_mem_lineBodyOf (by decide) hwordnl fun a ha => (hargs a ha).2
  have hraw : rawFields (lineOf word args) =
      fields (tokens marks (lineBodyOf word args ++ [marks.terminator])) := rfl
  rw [field_succ, hraw] at h1 h2
  rw [InBounds, hraw] at hin
  rw [field, rawField, hraw] at h0
  generalize hts : tokens marks (lineBodyOf word args ++ [marks.terminator]) = ts at *
  -- no field has a newline in it, so no escape reaches the end of the line
  have hend : Token.escaped marks.terminator ∉ ts := by
    intro hmem
    have htext : ∀ f, Token.escaped marks.terminator ∈ f → msgTerminatorChar ∈ text unescape f :=
      fun f hf => List.mem_filterMap.2 ⟨_, hf, rfl⟩
    have hfree := forall_mem_of_getD (p := (msgTerminatorChar ∉ ·)) (by rwa [List.length_map]) h1 h2
      List.not_mem_nil fun a ha => (hargs a ha).2
    rcases mem_field_of_mem hmem (by simp) with hmem | ⟨f, hf, hmem⟩
    · rw [← h0] at hwordnl
      exact hwordnl (htext _ hmem)
    · exact hfree _ (List.mem_map_of_mem hf) (htext f hmem)
  have htokens := length_tokens_add hbody (by rw [hts]; exact hend)
  have hfields := length_text_fields unescape ts
  rw [hts, length_lineBodyOf] at htokens
  rw [h0] at hfields
  have hsum : (((fields ts).2.map (text unescape)).map fun x => x.length + 1).sum +
      ts.countP Token.isEscaped = (args.map fun a => a.length + 1).sum := by
    rw [List.map_map, Function.comp_def]
    omega
  obtain ⟨hcount, hesc⟩ := length_eq_of_getD (by rwa [List.length_map]) hlen
    (fun a ha => (hargs a ha).1) h1 h2 hsum
  have hnoesc : marks.escape ∉ lineBodyOf word args := by
    intro hmem
    obtain ⟨e, he⟩ := escaped_mem_tokens hbody hmem
    rw [hts] at he
    exact absurd rfl (List.countP_eq_zero.1 hesc _ he)
  have hseps := length_fields_tokens (m := marks) (by decide) hbody hnoesc
  rw [List.length_map] at hcount
  rw [hts, hcount, marks_separator, count_lineBodyOf, List.count_eq_zero.2 hwordsep,
    Nat.zero_add] at hseps
  intro a ha
  constructor
  · exact List.count_eq_zero.1 (eq_zero_of_sum hseps a ha)
  · intro hmem
    apply hnoesc
    refine List.mem_append_right _ (List.mem_flatMap.2 ⟨a, ha, ?_⟩)
    exact List.mem_cons_of_mem _ hmem

/-- A line of arguments without newlines, none of them empty, is decoded to what it was built of
    exactly when no argument has a separator or a backslash in it. -/
theorem decoded_iff (hword : ∀ b ∈ word, marks.Plain b) (hlen : args.length < 3)
    (hargs : ∀ a ∈ args, a ≠ [] ∧ msgTerminatorChar ∉ a) :
    (InBounds (lineOf word args) ∧ field (lineOf word args) 0 = word ∧
        field (lineOf word args) 1 = args.getD 0 [] ∧ field (lineOf word args) 2 = args.getD 1 []) ↔
      ∀ a ∈ args, fieldSepChar ∉ a ∧ escapeChar ∉ a := by
  constructor
  · rintro ⟨hin, h0, h1, h2⟩
    exact plain_of_decoded hword hlen hargs hin h0 h1 h2
  · intro hplain
    have hargs' : ∀ a ∈ args, ∀ b ∈ a, marks.Plain b := by
      intro a ha b hb
      refine ⟨?_, ?_, ?_⟩
      · rintro rfl
        exact (hargs a ha).2 hb
      · rintro rfl
        exact (hplain a ha).2 hb
      · rintro rfl
        exact (hplain a ha).1 hb
    obtain ⟨hfirst, hrest⟩ := rawFields_escapedLine word args
    rw [escapedLine_of_plain hword hargs'] at hfirst hrest
    refine ⟨?_, hfirst, ?_, ?_⟩
    · rw [InBounds, ← List.length_map (text unescape), hrest]
      exact hlen
    · rw [field_succ, hrest]
    · rw [field_succ, hrest]

end ChatMultithread
