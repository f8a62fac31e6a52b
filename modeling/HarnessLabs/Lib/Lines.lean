import HarnessLabs.Lib.JsonText

/-!
# Lines of texts

A file of canonical JSON texts, one to a line, and the two ways to take it apart again: at line
feeds, or at every character that Unicode lists as a line boundary. Canonical texts escape the
control characters below U+0020, and no others.

* `readEach_textLines` — **split at line feeds, the lines read back as the values written.**
* `readEach_of_broken` — **split at every boundary, a value with a boundary in one of its strings
  stops the reading.**
-/

namespace HarnessLabs.Lines

open Json List

/-! ## Splitting -/

/-- The newline translation of a file opened as text. -/
def translateNewlines : List Char → List Char
  | [] => []
  | '\r' :: '\n' :: rest => '\n' :: translateNewlines rest
  | '\r' :: rest => '\n' :: translateNewlines rest
  | c :: rest => c :: translateNewlines rest

/-- The parts of a text between the breaks, behind the part already read; nothing behind the last
break is no part. -/
def splitBreaks (isBreak : Char → Bool) : List Char → List Char → List (List Char)
  | [], [] => []
  | current, [] => [current]
  | current, c :: rest =>
    if isBreak c then current :: splitBreaks isBreak [] rest
    else splitBreaks isBreak (current ++ [c]) rest

/-- The characters that `str.splitlines` splits at. A text has no carriage return behind a line
feed that would count as one break with it: the newline translation took them out. -/
def isBoundary (c : Char) : Bool :=
  c.toNat ∈ [0x0a, 0x0b, 0x0c, 0x0d, 0x1c, 0x1d, 0x1e, 0x85, 0x2028, 0x2029]

/-- `read_text().splitlines()`. -/
def splitlines (text : List Char) : List (List Char) :=
  splitBreaks isBoundary [] (translateNewlines text)

/-- Iteration over a file that is open as text. -/
def textLines (text : List Char) : List (List Char) :=
  splitBreaks (· == '\n') [] (translateNewlines text)

/-- One value to a line. -/
def writeLines (values : List Json) : List Char := values.flatMap fun v => dumps v ++ ['\n']

section Split

variable {isBreak : Char → Bool}

theorem splitBreaks_line {line : List Char} (hline : ∀ c ∈ line, isBreak c = false) {b : Char}
    (hb : isBreak b = true) (current rest : List Char) :
    splitBreaks isBreak current (line ++ b :: rest) =
      (current ++ line) :: splitBreaks isBreak [] rest := by
  induction line generalizing current with
  | nil => cases current <;> simp [splitBreaks, hb]
  | cons c line ih =>
    have hc : isBreak c = false := hline c mem_cons_self
    have hrest := ih (fun d hd => hline d (mem_cons_of_mem c hd)) (current ++ [c])
    cases current <;> simpa [splitBreaks, hc] using hrest

theorem splitBreaks_writeLines (hfeed : isBreak '\n' = true) {values : List Json}
    (hvalues : ∀ v ∈ values, ∀ c ∈ dumps v, isBreak c = false) :
    splitBreaks isBreak [] (writeLines values) = values.map dumps := by
  induction values with
  | nil => rfl
  | cons v values ih =>
    have hrest := ih fun w hw => hvalues w (mem_cons_of_mem v hw)
    rw [writeLines, flatMap_cons, append_assoc, singleton_append,
      splitBreaks_line (hvalues v mem_cons_self) hfeed, map_cons, nil_append]
    exact congrArg _ hrest

theorem translateNewlines_eq_self {text : List Char} (h : '\r' ∉ text) :
    translateNewlines text = text := by
  induction text with
  | nil => rfl
  | cons c text ih =>
    have hc : c ≠ '\r' := by
      rintro rfl
      exact h mem_cons_self
    have hrest := ih fun hmem => h (mem_cons_of_mem c hmem)
    simp [translateNewlines, hc, hrest]

end Split

/-! ## Characters of canonical texts -/

mutual

/-- The characters of the keys and the strings of a value. -/
def chars : Json → List Char
  | .str s => s.toList
  | .arr xs => charsList xs
  | .obj members => charsMembers members
  | _ => []

def charsList : List Json → List Char
  | [] => []
  | x :: xs => chars x ++ charsList xs

def charsMembers : List (String × Json) → List Char
  | [] => []
  | (key, x) :: xs => key.toList ++ chars x ++ charsMembers xs

end

section Chars

variable {c : Char}

theorem mem_charsMembers {key : String} {x : Json} {ms : List (String × Json)}
    (hm : (key, x) ∈ ms) (hc : c ∈ chars x) : c ∈ charsMembers ms := by
  induction ms with
  | nil => cases hm
  | cons m ms ih =>
    rw [charsMembers, mem_append, mem_append]
    rcases mem_cons.1 hm with rfl | hm
    · exact .inl (.inr hc)
    · exact .inr (ih hm)

/-- A character of a canonical text is no control character, and outside of ASCII it is one of the
strings. -/
def FromStrings (c : Char) (strings : List Char) : Prop :=
  32 ≤ c.toNat ∧ (128 ≤ c.toNat → c ∈ strings)

theorem fromStrings_mono {strings strings' : List Char} (h : FromStrings c strings)
    (hsub : strings ⊆ strings') : FromStrings c strings' :=
  ⟨h.1, fun hc => hsub (h.2 hc)⟩

theorem fromStrings_ascii (hlow : 32 ≤ c.toNat) (hhigh : c.toNat < 128) (strings : List Char) :
    FromStrings c strings := ⟨hlow, fun hc => absurd hc (Nat.not_le.2 hhigh)⟩

theorem hexDigit_ascii : ∀ k < 16, 32 ≤ (hexDigit k).toNat ∧ (hexDigit k).toNat < 128 := by decide

theorem mem_escapeChar {d : Char} (h : d ∈ escapeChar c) : FromStrings d [c] := by
  have hascii : ∀ e ∈ ['\\', '"', 'n', 'r', 't', 'b', 'f', 'u', '0'], FromStrings e [c] := by
    intro e he
    have hdecided : (['\\', '"', 'n', 'r', 't', 'b', 'f', 'u', '0'].all fun e =>
      decide (32 ≤ e.toNat ∧ e.toNat < 128)) = true := by decide
    obtain ⟨hlow, hhigh⟩ := of_decide_eq_true (all_eq_true.1 hdecided e he)
    exact fromStrings_ascii hlow hhigh [c]
  have hpair : ∀ e ∈ ['\\', '"', 'n', 'r', 't', 'b', 'f', 'u', '0'], d ∈ ['\\', e] →
      FromStrings d [c] := by
    intro e he hd
    rcases mem_pair.1 hd with rfl | rfl
    · exact hascii _ (by simp)
    · exact hascii _ he
  rw [escapeChar] at h
  split_ifs at h with h₁ h₂ h₃ h₄ h₅ h₆ h₇ h₈
  · exact hpair '"' (by simp) h
  · exact hpair '\\' (by simp) h
  · exact hpair 'n' (by simp) h
  · exact hpair 'r' (by simp) h
  · exact hpair 't' (by simp) h
  · exact hpair 'b' (by simp) h
  · exact hpair 'f' (by simp) h
  · simp only [mem_cons, not_mem_nil, or_false] at h
    have hhigh := hexDigit_ascii (c.toNat / 16) (by omega)
    have hlow := hexDigit_ascii (c.toNat % 16) (by omega)
    rcases h with rfl | rfl | rfl | rfl | rfl | rfl
    · exact hascii _ (by simp)
    · exact hascii _ (by simp)
    · exact hascii _ (by simp)
    · exact hascii _ (by simp)
    · exact fromStrings_ascii hhigh.1 hhigh.2 _
    · exact fromStrings_ascii hlow.1 hlow.2 _
  · obtain rfl := mem_singleton.1 h
    exact ⟨Nat.not_lt.1 h₈, fun _ => h⟩

theorem mem_dumpsString {s : String} (h : c ∈ dumpsString s) : FromStrings c s.toList := by
  rw [dumpsString, cons_append, mem_cons, mem_append, mem_singleton,
    mem_flatMap] at h
  rcases h with rfl | ⟨d, hd, hc⟩ | rfl
  · exact fromStrings_ascii (by decide) (by decide) _
  · exact fromStrings_mono (mem_escapeChar hc) (by simpa using hd)
  · exact fromStrings_ascii (by decide) (by decide) _

theorem mem_commaSep {texts : List (List Char)} (h : c ∈ commaSep texts) :
    c = ',' ∨ ∃ text ∈ texts, c ∈ text := by
  induction texts with
  | nil => cases h
  | cons x texts ih =>
    cases texts with
    | nil => exact .inr ⟨x, mem_cons_self, h⟩
    | cons y rest =>
      rw [commaSep, mem_append, mem_cons] at h
      rcases h with h | h | h
      · exact .inr ⟨x, mem_cons_self, h⟩
      · exact .inl h
      · exact (ih h).imp_right fun ⟨text, htext, hc⟩ => ⟨text, mem_cons_of_mem x htext, hc⟩

theorem mem_insertKey {m k : String × List Char} {ms : List (String × List Char)} :
    k ∈ insertKey m ms ↔ k = m ∨ k ∈ ms := by
  induction ms with
  | nil => simp [insertKey]
  | cons x ms ih =>
    rw [insertKey]
    split_ifs
    · simp
    · rw [mem_cons, ih, mem_cons, or_left_comm]

theorem mem_sortKeys {k : String × List Char} {ms : List (String × List Char)} :
    k ∈ sortKeys ms ↔ k ∈ ms := by
  induction ms with
  | nil => rfl
  | cons m ms ih =>
    rw [sortKeys] at ih
    rw [sortKeys, foldr_cons, mem_insertKey, ih, mem_cons]

theorem ascii_word {word : List Char}
    (h : (word.all fun d => decide (32 ≤ d.toNat ∧ d.toNat < 128)) = true) (hc : c ∈ word)
    (strings : List Char) : FromStrings c strings :=
  have hascii := of_decide_eq_true (all_eq_true.1 h c hc)
  fromStrings_ascii hascii.1 hascii.2 strings

theorem ascii_of_isDigit (h : c.isDigit = true) : 32 ≤ c.toNat ∧ c.toNat < 128 := by
  rw [Char.isDigit_iff_toNat] at h
  have hzero : '0'.toNat = 48 := rfl
  have hnine : '9'.toNat = 57 := rfl
  omega

theorem ascii_toString_int {n : ℤ} (h : c ∈ (toString n).toList) (strings : List Char) :
    FromStrings c strings := by
  have hdigit {m : ℕ} (h : c ∈ Nat.toDigits 10 m) : FromStrings c strings := by
    have hascii := ascii_of_isDigit
      (Nat.isDigit_of_mem_toDigits (by norm_num) (by norm_num) h)
    exact fromStrings_ascii hascii.1 hascii.2 strings
  rw [toList_toString_int] at h
  split_ifs at h
  · rcases mem_cons.1 h with rfl | h
    · exact fromStrings_ascii (by decide) (by decide) strings
    · exact hdigit h
  · exact hdigit h

mutual

theorem mem_dumps : ∀ (v : Json) (c : Char), c ∈ dumps v → FromStrings c (chars v)
  | .null, c, h => ascii_word (by decide) h _
  | .bool true, c, h => ascii_word (by decide) h _
  | .bool false, c, h => ascii_word (by decide) h _
  | .int n, c, h => ascii_toString_int h _
  | .str s, c, h => mem_dumpsString h
  | .arr xs, c, h => by
    rw [dumps, cons_append, mem_cons, mem_append, mem_singleton] at h
    rcases h with rfl | h | rfl
    · exact fromStrings_ascii (by decide) (by decide) _
    · obtain rfl | ⟨text, htext, hc⟩ := mem_commaSep h
      · exact fromStrings_ascii (by decide) (by decide) _
      · exact mem_dumpsList xs c text htext hc
    · exact fromStrings_ascii (by decide) (by decide) _
  | .obj members, c, h => by
    rw [dumps, cons_append, mem_cons, mem_append, mem_singleton] at h
    rcases h with rfl | h | rfl
    · exact fromStrings_ascii (by decide) (by decide) _
    · obtain rfl | ⟨text, htext, hc⟩ := mem_commaSep h
      · exact fromStrings_ascii (by decide) (by decide) _
      · obtain ⟨m, hm, rfl⟩ := mem_map.1 htext
        exact mem_dumpsMembers members c m (mem_sortKeys.1 hm) hc
    · exact fromStrings_ascii (by decide) (by decide) _

theorem mem_dumpsList : ∀ (xs : List Json) (c : Char) (text : List Char), text ∈ dumpsList xs →
    c ∈ text → FromStrings c (charsList xs)
  | x :: xs, c, text, htext, hc => by
    rw [dumpsList, mem_cons] at htext
    rw [charsList]
    rcases htext with rfl | htext
    · exact fromStrings_mono (mem_dumps x c hc) (subset_append_left _ _)
    · exact fromStrings_mono (mem_dumpsList xs c text htext hc) (subset_append_right _ _)

theorem mem_dumpsMembers : ∀ (ms : List (String × Json)) (c : Char) (m : String × List Char),
    m ∈ dumpsMembers ms → c ∈ member m → FromStrings c (charsMembers ms)
  | (key, x) :: ms, c, m, hm, hc => by
    rw [dumpsMembers, mem_cons] at hm
    rw [charsMembers, append_assoc]
    rcases hm with rfl | hm
    · rw [member, mem_append, mem_cons] at hc
      rcases hc with hc | rfl | hc
      · exact fromStrings_mono (mem_dumpsString hc) (subset_append_left _ _)
      · exact fromStrings_ascii (by decide) (by decide) _
      · refine fromStrings_mono (mem_dumps x c hc) ?_
        exact List.Subset.trans (subset_append_left _ _) (subset_append_right _ _)
    · refine fromStrings_mono (mem_dumpsMembers ms c m hm hc) ?_
      exact List.Subset.trans (subset_append_right _ _) (subset_append_right _ _)

end

theorem mem_escapeChar_self (hc : 128 ≤ c.toNat) : c ∈ escapeChar c := by
  have hne {d : Char} (hd : d.toNat < 128) : c ≠ d := by
    rintro rfl
    omega
  rw [escapeChar, if_neg (hne (by decide)), if_neg (hne (by decide)), if_neg (hne (by decide)),
    if_neg (hne (by decide)), if_neg (hne (by decide)), if_neg (by omega), if_neg (by omega),
    if_neg (by omega)]
  exact mem_singleton_self c

theorem mem_dumpsString_of_mem {s : String} (hc : 128 ≤ c.toNat) (h : c ∈ s.toList) :
    c ∈ dumpsString s := by
  refine mem_append_left _ (mem_cons_of_mem _ ?_)
  exact mem_flatMap.2 ⟨c, h, mem_escapeChar_self hc⟩

theorem mem_commaSep_of_mem {texts : List (List Char)} {text : List Char} (htext : text ∈ texts)
    (h : c ∈ text) : c ∈ commaSep texts := by
  induction texts with
  | nil => cases htext
  | cons x texts ih =>
    cases texts with
    | nil =>
      obtain rfl := mem_singleton.1 htext
      exact h
    | cons y rest =>
      rw [commaSep, mem_append, mem_cons]
      rcases mem_cons.1 htext with rfl | htext
      · exact .inl h
      · exact .inr (.inr (ih htext))

mutual

theorem mem_dumps_of_chars : ∀ (v : Json) (c : Char), 128 ≤ c.toNat → c ∈ chars v → c ∈ dumps v
  | .null, c, _, h => by cases h
  | .bool b, c, _, h => by cases h
  | .int n, c, _, h => by cases h
  | .str s, c, hc, h => mem_dumpsString_of_mem hc h
  | .arr xs, c, hc, h => by
    obtain ⟨text, htext, hmem⟩ := mem_dumpsList_of_chars xs c hc h
    rw [dumps]
    exact mem_append_left _ (mem_cons_of_mem _ (mem_commaSep_of_mem htext hmem))
  | .obj members, c, hc, h => by
    obtain ⟨m, hm, hmem⟩ := mem_dumpsMembers_of_chars members c hc h
    rw [dumps]
    refine mem_append_left _ (mem_cons_of_mem _ ?_)
    exact mem_commaSep_of_mem (mem_map_of_mem (mem_sortKeys.2 hm)) hmem

theorem mem_dumpsList_of_chars : ∀ (xs : List Json) (c : Char), 128 ≤ c.toNat →
    c ∈ charsList xs → ∃ text ∈ dumpsList xs, c ∈ text
  | x :: xs, c, hc, h => by
    rw [charsList, mem_append] at h
    rcases h with h | h
    · exact ⟨_, mem_cons_self, mem_dumps_of_chars x c hc h⟩
    · obtain ⟨text, htext, hmem⟩ := mem_dumpsList_of_chars xs c hc h
      exact ⟨text, mem_cons_of_mem _ htext, hmem⟩

theorem mem_dumpsMembers_of_chars : ∀ (ms : List (String × Json)) (c : Char), 128 ≤ c.toNat →
    c ∈ charsMembers ms → ∃ m ∈ dumpsMembers ms, c ∈ member m
  | (key, x) :: ms, c, hc, h => by
    rw [charsMembers, append_assoc, mem_append, mem_append] at h
    rcases h with h | h | h
    · exact ⟨_, mem_cons_self, mem_append_left _ (mem_dumpsString_of_mem hc h)⟩
    · refine ⟨_, mem_cons_self, mem_append_right _ (mem_cons_of_mem _ ?_)⟩
      exact mem_dumps_of_chars x c hc h
    · obtain ⟨m, hm, hmem⟩ := mem_dumpsMembers_of_chars ms c hc h
      exact ⟨m, mem_cons_of_mem _ hm, hmem⟩

end

end Chars

/-! ## Reading -/

/-- Read every line as a JSON text and go on with its value. -/
def readEach {σ : Type} (visit : σ → Json → Except String σ) :
    σ → List (List Char) → Except String σ
  | acc, [] => .ok acc
  | acc, line :: rest =>
    match loads line with
    | none => .error "invalid JSON"
    | some value =>
      match visit acc value with
      | .error e => .error e
      | .ok acc => readEach visit acc rest

/-- An object in key order. -/
def IsRecord (v : Json) : Prop := Keyed v ∧ ∃ members, v = .obj members

/-- The boundaries that a canonical text can hold. -/
def isWideBoundary (c : Char) : Bool := c.toNat ∈ [0x85, 0x2028, 0x2029]

/-- No string of the value has a line boundary that its canonical text does not escape. -/
def Unbroken (v : Json) : Prop := ∀ c ∈ chars v, isWideBoundary c = false

theorem unbroken_obj {members : List (String × Json)} :
    Unbroken (.obj members) ↔ ∀ m ∈ members, Unbroken (.str m.1) ∧ Unbroken m.2 := by
  simp only [Unbroken, chars]
  induction members with
  | nil => simp [charsMembers]
  | cons m members ih =>
    simp only [charsMembers, forall_mem_append, ih, forall_mem_cons, and_assoc]

theorem unbroken_arr {values : List Json} :
    Unbroken (.arr values) ↔ ∀ v ∈ values, Unbroken v := by
  simp only [Unbroken, chars]
  induction values with
  | nil => simp [charsList]
  | cons v values ih => simp only [charsList, forall_mem_append, ih, forall_mem_cons]

theorem unbroken_ascii {s : String} (h : ∀ c ∈ s.toList, c.toNat < 128) : Unbroken (.str s) := by
  intro c hc
  have hlow := h c hc
  simp [isWideBoundary]
  omega

/-- The same by running the test. -/
theorem unbroken_of_all {s : String} (h : (s.toList.all fun c => decide (c.toNat < 128)) = true) :
    Unbroken (.str s) :=
  unbroken_ascii fun c hc => of_decide_eq_true (all_eq_true.1 h c hc)

section Read

variable {σ : Type} {isBreak : Char → Bool} {values : List Json}

/-- The lines are read as values, and the visits go through all of them. -/
theorem readEach_eq_ok {visit : σ → Json → Except String σ} {acc acc' : σ}
    {lines : List (List Char)} :
    readEach visit acc lines = .ok acc' ↔
      ∃ values, lines.mapM loads = some values ∧ values.foldlM visit acc = .ok acc' := by
  induction lines generalizing acc with
  | nil => simp [readEach, pure, Except.pure]
  | cons line lines ih =>
    rw [readEach, mapM_cons]
    cases hline : loads line with
    | none => simp
    | some value =>
      have hcons : (∃ values, (some value >>= fun v => lines.mapM loads >>= fun vs => pure (v :: vs)) =
          some values ∧ values.foldlM visit acc = .ok acc') ↔
          ∃ rest, lines.mapM loads = some rest ∧ (value :: rest).foldlM visit acc = .ok acc' := by
        cases lines.mapM loads <;> simp
      rw [hcons]
      simp only [foldlM_cons]
      cases hvisit : visit acc value with
      | error e => simp [bind, Except.bind]
      | ok next => exact ih

theorem readEach_map_dumps (visit : σ → Json → Except String σ) (acc : σ)
    (hvalues : ∀ v ∈ values, Keyed v) :
    readEach visit acc (values.map dumps) = values.foldlM visit acc := by
  induction values generalizing acc with
  | nil => rfl
  | cons v values ih =>
    have hv : loads (dumps v) = some v := by
      simpa using loads_dumps (hvalues v mem_cons_self) (forall_mem_nil _)
    rw [map_cons, readEach, hv, foldlM_cons]
    dsimp only
    cases hvisit : visit acc v with
    | error e => rfl
    | ok acc' => exact ih acc' fun w hw => hvalues w (mem_cons_of_mem v hw)

theorem carriageReturn_notMem (values : List Json) : '\r' ∉ writeLines values := by
  intro hmem
  obtain ⟨v, -, hv⟩ := mem_flatMap.1 hmem
  rcases mem_append.1 hv with hv | hv
  · exact absurd (mem_dumps v _ hv).1 (by decide)
  · exact absurd (mem_singleton.1 hv) (by decide)

/-- **At line feeds the lines are the values written.** -/
theorem readEach_textLines (visit : σ → Json → Except String σ) (acc : σ)
    (hvalues : ∀ v ∈ values, Keyed v) :
    readEach visit acc (textLines (writeLines values)) = values.foldlM visit acc := by
  rw [textLines, translateNewlines_eq_self (carriageReturn_notMem values),
    splitBreaks_writeLines rfl fun v _ c hc => ?_, readEach_map_dumps visit acc hvalues]
  have hlow := (mem_dumps v c hc).1
  rw [beq_eq_false_iff_ne]
  rintro rfl
  exact absurd hlow (by decide)

theorem isBoundary_of_mem_dumps {v : Json} (hv : Unbroken v) {c : Char} (hc : c ∈ dumps v) :
    isBoundary c = false := by
  obtain ⟨hlow, hstrings⟩ := mem_dumps v c hc
  by_cases hascii : c.toNat < 128
  · simp [isBoundary]
    omega
  · have hwide := hv c (hstrings (Nat.not_lt.1 hascii))
    simp [isBoundary, isWideBoundary] at hwide ⊢
    omega

/-- At every boundary too, as long as no string holds one. -/
theorem readEach_splitlines (visit : σ → Json → Except String σ) (acc : σ)
    (hvalues : ∀ v ∈ values, Keyed v ∧ Unbroken v) :
    readEach visit acc (splitlines (writeLines values)) = values.foldlM visit acc := by
  rw [splitlines, translateNewlines_eq_self (carriageReturn_notMem values),
    splitBreaks_writeLines rfl fun v hv c hc => isBoundary_of_mem_dumps (hvalues v hv).2 hc,
    readEach_map_dumps visit acc fun v hv => (hvalues v hv).1]

/-- A list with an element that a test accepts is cut at its first one. -/
theorem split_at_break {text : List Char} {b : Char} (hb : b ∈ text) (hbreak : isBreak b = true) :
    ∃ before b' behind, text = before ++ b' :: behind ∧ isBreak b' = true ∧
      ∀ c ∈ before, isBreak c = false := by
  induction text with
  | nil => cases hb
  | cons c text ih =>
    by_cases hc : isBreak c = true
    · exact ⟨[], c, text, rfl, hc, forall_mem_nil _⟩
    · have hmem : b ∈ text := by
        rcases mem_cons.1 hb with rfl | hmem
        · exact absurd hbreak hc
        · exact hmem
      obtain ⟨before, b', behind, rfl, hb', hclean⟩ := ih hmem
      refine ⟨c :: before, b', behind, rfl, hb', ?_⟩
      intro d hd
      rcases mem_cons.1 hd with rfl | hd
      · simpa using hc
      · exact hclean d hd

theorem splitBreaks_of_unbroken {v : Json} (hv : Unbroken v) (values : List Json) :
    splitBreaks isBoundary [] (writeLines (v :: values)) =
      dumps v :: splitBreaks isBoundary [] (writeLines values) := by
  rw [writeLines, flatMap_cons, append_assoc, singleton_append,
    splitBreaks_line (fun c hc => isBoundary_of_mem_dumps hv hc) rfl]
  rfl

/-- The first boundary in the text of a value ends its line inside of the object. -/
theorem splitBreaks_of_broken {v : Json} (hrecord : IsRecord v) (hv : ¬ Unbroken v)
    (values : List Json) : ∃ part rest,
      splitBreaks isBoundary [] (writeLines (v :: values)) = part :: rest ∧ loads part = none ∧
        '\x7b' ∈ part := by
  obtain ⟨hkeyed, members, rfl⟩ := hrecord
  simp only [Unbroken, not_forall, Bool.not_eq_false] at hv
  obtain ⟨c, hc, hwide⟩ := hv
  have hlarge : 128 ≤ c.toNat ∧ isBoundary c = true := by
    simp [isWideBoundary, isBoundary] at hwide ⊢
    omega
  obtain ⟨before, b, behind, htext, hb, hclean⟩ :=
    split_at_break (mem_dumps_of_chars _ c hlarge.1 hc) hlarge.2
  refine ⟨before, splitBreaks isBoundary [] (behind ++ '\n' :: writeLines values), ?_,
    loads_prefix hkeyed htext (cons_ne_nil b behind), ?_⟩
  · rw [writeLines, flatMap_cons, htext, append_assoc, append_assoc, cons_append,
      splitBreaks_line hclean hb, nil_append]
    rfl
  · cases before with
    | nil =>
      rw [← (List.cons.inj htext).1] at hb
      exact absurd hb (by decide)
    | cons d before =>
      exact mem_cons.2 (.inl (List.cons.inj htext).1)

/-- **A boundary in a string stops the reading**, whatever the lines are read for: the part of the
text before it is no JSON text. -/
theorem readEach_of_broken (visit : σ → Json → Except String σ) (acc : σ)
    (hvalues : ∀ v ∈ values, IsRecord v) (hbroken : ∃ v ∈ values, ¬ Unbroken v) :
    ∃ message, readEach visit acc (splitlines (writeLines values)) = .error message := by
  rw [splitlines, translateNewlines_eq_self (carriageReturn_notMem values)]
  induction values generalizing acc with
  | nil =>
    obtain ⟨v, hv, -⟩ := hbroken
    cases hv
  | cons v values ih =>
    obtain ⟨hrecord, hrest⟩ := forall_mem_cons.1 hvalues
    by_cases hv : Unbroken v
    · have hload : loads (dumps v) = some v := by
        simpa using loads_dumps hrecord.1 (forall_mem_nil _)
      rw [splitBreaks_of_unbroken hv, readEach, hload]
      dsimp only
      cases hvisit : visit acc v with
      | error e => exact ⟨e, rfl⟩
      | ok acc' => exact ih acc' hrest ((exists_mem_cons_iff ..).1 hbroken |>.resolve_left (· hv))
    · obtain ⟨part, rest, hsplit, hpart, -⟩ := splitBreaks_of_broken hrecord hv values
      exact ⟨"invalid JSON", by rw [hsplit, readEach, hpart]⟩

end Read

end HarnessLabs.Lines
