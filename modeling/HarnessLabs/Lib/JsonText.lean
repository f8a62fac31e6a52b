import HarnessLabs.Lib.Json
import HarnessLabs.Lib.Text
import Mathlib.Data.List.TakeWhile
import Mathlib.Data.String.Basic

/-!
# Reading JSON texts

The reader of JSON texts, for values without fractions: a number with a fraction or an exponent,
and an escape of half a surrogate pair, are outside of the values here and are not read.

* `loads` — the value of a text.
* `loads_dumps` — **the canonical text of a value whose objects are in key order reads back.**
* `dumps_inj` — so it determines the value.
* `loads_prefix` — **no proper part at the start of the text of an object reads as a value.**
-/

namespace HarnessLabs.Json

open List Option

/-! ## Values in key order -/

mutual

/-- Every object lists its members in key order. -/
def Keyed : Json → Prop
  | .arr xs => KeyedList xs
  | .obj members => (members.map Prod.fst).Pairwise (· < ·) ∧ KeyedMembers members
  | _ => True

def KeyedList : List Json → Prop
  | [] => True
  | x :: xs => Keyed x ∧ KeyedList xs

def KeyedMembers : List (String × Json) → Prop
  | [] => True
  | (_, x) :: xs => Keyed x ∧ KeyedMembers xs

end

variable {key : String} {value v : Json} {ms : List (String × Json)}

theorem fst_mem_setMember {m : String × Json} (h : m ∈ setMember key value ms) :
    m.1 = key ∨ m ∈ ms := by
  induction ms with
  | nil =>
    rw [mem_singleton.1 h]
    exact .inl rfl
  | cons k ms ih =>
    rw [setMember] at h
    split_ifs at h
    · rcases mem_cons.1 h with rfl | h
      · exact .inl rfl
      · exact .inr (mem_cons_of_mem _ h)
    · rcases mem_cons.1 h with rfl | h
      · exact .inl rfl
      · exact .inr h
    · rcases mem_cons.1 h with rfl | h
      · exact .inr mem_cons_self
      · exact (ih h).imp_right (mem_cons_of_mem _)

theorem keyed_setMember (hvalue : Keyed value) (h : Keyed (.obj ms)) :
    Keyed (.obj (setMember key value ms)) := by
  obtain ⟨hkeys, hmembers⟩ := h
  induction ms with
  | nil => exact ⟨pairwise_singleton _ _, hvalue, trivial⟩
  | cons m ms ih =>
    obtain ⟨hfirst, hrest⟩ := pairwise_cons.1 hkeys
    rw [setMember]
    split_ifs with hsame hless
    · subst hsame
      exact ⟨hkeys, hvalue, hmembers.2⟩
    · refine ⟨pairwise_cons.2 ⟨fun k hk => ?_, hkeys⟩, hvalue, hmembers⟩
      rcases mem_cons.1 hk with rfl | hk
      · exact hless
      · exact hless.trans (hfirst k hk)
    · obtain ⟨hkeys', hmembers'⟩ := ih hrest hmembers.2
      refine ⟨pairwise_cons.2 ⟨fun k hk => ?_, hkeys'⟩, hmembers.1, hmembers'⟩
      obtain ⟨m, hm, rfl⟩ := mem_map.1 hk
      rcases fst_mem_setMember hm with heq | hm
      · rw [heq]
        exact lt_of_le_of_ne (not_lt.1 hless) hsame
      · exact hfirst m.1 (mem_map_of_mem hm)

theorem keyed_foldl_setMember {base updates : List (String × Json)} (hbase : Keyed (.obj base))
    (hupdates : KeyedMembers updates) :
    Keyed (.obj (updates.foldl (fun acc m => setMember m.1 m.2 acc) base)) := by
  induction updates generalizing base with
  | nil => exact hbase
  | cons m updates ih => exact ih (keyed_setMember hupdates.1 hbase) hupdates.2

theorem keyed_filter {test : String × Json → Bool} (h : Keyed (.obj ms)) :
    Keyed (.obj (ms.filter test)) := by
  refine ⟨List.Pairwise.sublist (List.Sublist.map _ filter_sublist) h.1, ?_⟩
  have hmembers := h.2
  clear h
  induction ms with
  | nil => trivial
  | cons m ms ih =>
    rw [filter_cons]
    split_ifs
    · exact ⟨hmembers.1, ih hmembers.2⟩
    · exact ih hmembers.2

theorem mem_iff_get? (h : Keyed (.obj ms)) {m : String × Json} :
    m ∈ ms ↔ (obj ms).get? m.1 = some m.2 := by
  obtain ⟨hkeys, -⟩ := h
  induction ms with
  | nil => simp [get?]
  | cons n ms ih =>
    obtain ⟨hfirst, hrest⟩ := pairwise_cons.1 hkeys
    have htail : m ∈ ms ↔ (obj ms).get? m.1 = some m.2 := ih hrest
    by_cases hkey : n.1 = m.1
    · have hnot : m ∉ ms := by
        intro hm
        exact (hfirst m.1 (mem_map_of_mem hm)).ne hkey
      rw [mem_cons, or_iff_left hnot]
      simp only [get?, List.find?_cons, hkey, beq_self_eq_true, map_some, Option.some.injEq]
      constructor
      · intro heq
        rw [heq]
      · intro heq
        exact Prod.ext hkey.symm heq.symm
    · have hne : m ≠ n := fun heq => hkey (by rw [heq])
      rw [mem_cons, or_iff_right hne, htail]
      simp only [get?, List.find?_cons, beq_eq_false_iff_ne.2 hkey]

/-- An object is determined by one member and all of the others. -/
theorem members_eq {ns : List (String × Json)} (hms : Keyed (.obj ms)) (hns : Keyed (.obj ns))
    (hget : (obj ms).get? key = (obj ns).get? key)
    (hothers : ms.filter (·.1 ≠ key) = ns.filter (·.1 ≠ key)) : ms = ns := by
  refine (pairwise_map.1 hms.1).eq_of_mem_iff (pairwise_map.1 hns.1) fun m => ?_
  by_cases hkey : m.1 = key
  · rw [mem_iff_get? hms, mem_iff_get? hns, hkey, hget]
  · have hfilter : m ∈ ms.filter (·.1 ≠ key) ↔ m ∈ ns.filter (·.1 ≠ key) := by rw [hothers]
    simpa [hkey] using hfilter

/-! ## Tokens -/

def isSpace (c : Char) : Bool := c == ' ' || c == '\t' || c == '\n' || c == '\r'

def skipSpace (s : List Char) : List Char := s.dropWhile isSpace

def hexValue (c : Char) : Option ℕ :=
  if '0' ≤ c ∧ c ≤ '9' then some (c.toNat - 48)
  else if 'a' ≤ c ∧ c ≤ 'f' then some (c.toNat - 87)
  else if 'A' ≤ c ∧ c ≤ 'F' then some (c.toNat - 55)
  else none

def escapedChar (c : Char) : Option Char :=
  if c = '"' then some '"'
  else if c = '\\' then some '\\'
  else if c = '/' then some '/'
  else if c = 'n' then some '\n'
  else if c = 'r' then some '\r'
  else if c = 't' then some '\t'
  else if c = 'b' then some (Char.ofNat 8)
  else if c = 'f' then some (Char.ofNat 12)
  else none

/-- The rest of a string behind its opening quote, and the text behind its closing one. -/
def scanString : List Char → Option (List Char × List Char)
  | [] => none
  | '"' :: rest => some ([], rest)
  | '\\' :: 'u' :: a :: b :: c :: d :: rest => do
    let high ← hexValue a
    let code := ((high * 16 + (← hexValue b)) * 16 + (← hexValue c)) * 16 + (← hexValue d)
    if 0xd800 ≤ code ∧ code < 0xe000 then none
    else (scanString rest).map fun r => (Char.ofNat code :: r.1, r.2)
  | '\\' :: c :: rest => do
    let e ← escapedChar c
    (scanString rest).map fun r => (e :: r.1, r.2)
  | c :: rest =>
    if c.toNat < 32 ∨ c = '\\' then none else (scanString rest).map fun r => (c :: r.1, r.2)

/-- A numeral without a leading zero, a fraction or an exponent. -/
def scanNat (s : List Char) : Option (ℕ × List Char) :=
  let digits := s.takeWhile Char.isDigit
  let rest := s.dropWhile Char.isDigit
  if digits = [] ∨ (digits.head? = some '0' ∧ digits.length ≠ 1) then none
  else if rest.head? ∈ [some '.', some 'e', some 'E'] then none
  else some (Nat.ofDigitChars 10 digits 0, rest)

def keyword (word : List Char) (value : Json) (s : List Char) : Option (Json × List Char) :=
  if word.isPrefixOf s then some (value, s.drop word.length) else none

/-! ## Values -/

mutual

/-- A value at the start of a text, and the text behind it. -/
def scanValue : ℕ → List Char → Option (Json × List Char)
  | 0, _ => none
  | _, [] => none
  | n + 1, c :: s =>
    if c = '"' then (scanString s).map fun r => (.str (String.ofList r.1), r.2)
    else if c = '[' then
      match skipSpace s with
      | [] => none
      | d :: rest =>
        if d = ']' then some (.arr [], rest)
        else (scanElements n (d :: rest)).map fun r => (.arr r.1, r.2)
    else if c = '\x7b' then
      match skipSpace s with
      | [] => none
      | d :: rest =>
        if d = '\x7d' then some (.obj [], rest)
        else (scanMembers n (d :: rest)).map fun r => (ofMembers r.1, r.2)
    else if c = 'n' then keyword ['u', 'l', 'l'] .null s
    else if c = 't' then keyword ['r', 'u', 'e'] (.bool true) s
    else if c = 'f' then keyword ['a', 'l', 's', 'e'] (.bool false) s
    else if c = '-' then (scanNat s).map fun r => (.int (-r.1), r.2)
    else (scanNat (c :: s)).map fun r => (.int r.1, r.2)

/-- Elements up to the closing bracket. -/
def scanElements : ℕ → List Char → Option (List Json × List Char)
  | 0, _ => none
  | n + 1, s =>
    match scanValue n s with
    | none => none
    | some (value, behind) =>
      match skipSpace behind with
      | [] => none
      | d :: rest =>
        if d = ']' then some ([value], rest)
        else if d = ',' then
          (scanElements n (skipSpace rest)).map fun r => (value :: r.1, r.2)
        else none

/-- Members up to the closing brace. -/
def scanMembers : ℕ → List Char → Option (List (String × Json) × List Char)
  | 0, _ => none
  | _, [] => none
  | n + 1, q :: s =>
    if q ≠ '"' then none
    else
      match scanString s with
      | none => none
      | some (key, behind) =>
        match skipSpace behind with
        | [] => none
        | colon :: text =>
          if colon ≠ ':' then none
          else
            match scanValue n (skipSpace text) with
            | none => none
            | some (value, behind) =>
              match skipSpace behind with
              | [] => none
              | d :: rest =>
                if d = '\x7d' then some ([(String.ofList key, value)], rest)
                else if d = ',' then
                  (scanMembers n (skipSpace rest)).map fun r =>
                    ((String.ofList key, value) :: r.1, r.2)
                else none

end

/-- `json.loads`. -/
def loads (s : List Char) : Option Json :=
  match scanValue (s.length + 1) (skipSpace s) with
  | none => none
  | some (value, rest) => if skipSpace rest = [] then some value else none

/-! ## Longer texts -/

section Append

variable {n : ℕ} {s t r : List Char}

theorem skipSpace_append {c : Char} (h : skipSpace s = c :: r) :
    skipSpace (s ++ t) = c :: (r ++ t) := by
  rw [skipSpace] at h ⊢
  rw [dropWhile_append, h]
  rfl

theorem scanString_append {x : List Char} (h : scanString s = some (x, r)) (t : List Char) :
    scanString (s ++ t) = some (x, r ++ t) := by
  fun_induction scanString s generalizing x with
  | case1 => cases h
  | case2 rest =>
    cases h
    rfl
  | case3 a b c d rest ih =>
    simp only [bind_eq_bind, bind_eq_some_iff] at h
    obtain ⟨va, ha, vb, hb, vc, hc, vd, hd, h⟩ := h
    split_ifs at h with hcode
    obtain ⟨⟨y, r'⟩, hy, heq⟩ := map_eq_some_iff.1 h
    obtain ⟨rfl, rfl⟩ := Prod.mk.inj heq
    simp [scanString, ha, hb, hc, hd, hcode, ih hy]
  | case4 c rest hne ih =>
    simp only [bind_eq_bind, bind_eq_some_iff] at h
    obtain ⟨e, he, h⟩ := h
    obtain ⟨⟨y, r'⟩, hy, heq⟩ := map_eq_some_iff.1 h
    obtain ⟨rfl, rfl⟩ := Prod.mk.inj heq
    have hu : c ≠ 'u' := by
      rintro rfl
      cases he
    simp [scanString, he, ih hy, hu]
  | case5 c rest hquote hu hescape hsmall => cases h
  | case6 c rest hquote hu hescape hsmall ih =>
    obtain ⟨⟨y, r'⟩, hy, heq⟩ := map_eq_some_iff.1 h
    obtain ⟨rfl, rfl⟩ := Prod.mk.inj heq
    obtain ⟨hlarge, hback⟩ := not_or.1 hsmall
    simp [scanString, hback, Nat.not_lt.1 hlarge, ih hy]

theorem span_digits {digits : List Char} {c : Char} (hdigits : ∀ d ∈ digits, d.isDigit = true)
    (hc : c.isDigit = false) (r : List Char) :
    (digits ++ c :: r).takeWhile Char.isDigit = digits ∧
      (digits ++ c :: r).dropWhile Char.isDigit = c :: r := by
  rw [takeWhile_append_of_pos hdigits, dropWhile_append_of_pos hdigits]
  simp [hc]

/-- A numeral that ends before the text does is the same numeral of a longer text. -/
theorem scanNat_append {m : ℕ} (h : scanNat s = some (m, r)) (hr : r ≠ []) (t : List Char) :
    scanNat (s ++ t) = some (m, r ++ t) := by
  rw [scanNat] at h
  split_ifs at h with hempty hfraction
  obtain ⟨rfl, hrest⟩ := Prod.mk.inj (Option.some.inj h)
  obtain ⟨c, r, rfl⟩ := exists_cons_of_ne_nil hr
  have hc : c.isDigit = false := by
    have hhead := List.head?_dropWhile_not Char.isDigit s
    rw [hrest] at hhead
    simpa using hhead
  have hs : s = s.takeWhile Char.isDigit ++ c :: r := by
    rw [← hrest, takeWhile_append_dropWhile]
  have hspan := span_digits (fun _ => mem_takeWhile_imp (l := s)) hc (r ++ t)
  have hlong : s ++ t = s.takeWhile Char.isDigit ++ c :: (r ++ t) := by
    conv_lhs => rw [hs]
    simp
  rw [hrest] at hfraction
  rw [scanNat, hlong, hspan.1, hspan.2, if_neg hempty, if_neg (by simpa using hfraction)]
  rfl

theorem keyword_append {word : List Char} {value v : Json}
    (h : keyword word value s = some (v, r)) (t : List Char) :
    keyword word value (s ++ t) = some (v, r ++ t) := by
  rw [keyword] at h
  split_ifs at h with hpre
  cases h
  obtain ⟨rest, rfl⟩ := isPrefixOf_iff_prefix.1 hpre
  simp [keyword, isPrefixOf_iff_prefix]

@[simp] theorem scanValue_nil (n : ℕ) : scanValue n [] = none := by cases n <;> rfl

@[simp] theorem scanElements_nil (n : ℕ) : scanElements n [] = none := by
  cases n with
  | zero => rfl
  | succ n => simp [scanElements]

@[simp] theorem scanMembers_nil (n : ℕ) : scanMembers n [] = none := by cases n <;> rfl

/-- What the scanner reads with fuel `n` it reads with more fuel, and of a longer text. -/
def Extends {α : Type} (scan : ℕ → List Char → Option (α × List Char)) (n : ℕ) : Prop :=
  ∀ s x r, scan n s = some (x, r) → ∀ m t, n ≤ m → scan m (s ++ t) = some (x, r ++ t)

theorem Extends.skipSpace {α : Type} {scan : ℕ → List Char → Option (α × List Char)}
    (h : Extends scan n) (hnil : scan n [] = none) {x : α}
    (hscan : scan n (skipSpace s) = some (x, r)) {m : ℕ} (t : List Char) (hm : n ≤ m) :
    scan m (Json.skipSpace (s ++ t)) = some (x, r ++ t) := by
  cases hspace : Json.skipSpace s with
  | nil =>
    rw [hspace, hnil] at hscan
    cases hscan
  | cons c rest =>
    rw [hspace] at hscan
    rw [skipSpace_append hspace]
    exact h _ _ _ hscan m t hm

/-- Only a number may go on where a text ends; an object cannot. -/
def ValueExtends (n : ℕ) : Prop :=
  ∀ s v r, scanValue n s = some (v, r) → (r ≠ [] ∨ s.head? = some '\x7b') →
    ∀ m t, n ≤ m → scanValue m (s ++ t) = some (v, r ++ t)

theorem valueExtends_succ (hElements : Extends scanElements n) (hMembers : Extends scanMembers n) :
    ValueExtends (n + 1) := by
  intro s v r h hr m t hm
  obtain ⟨m, rfl⟩ : ∃ k, m = k + 1 := ⟨m - 1, by omega⟩
  have hm : n ≤ m := by omega
  cases s with
  | nil => cases h
  | cons c s =>
    rw [cons_append]
    rw [scanValue] at h ⊢
    split_ifs at h ⊢ with hstring harray hobject hnull htrue hfalse hminus
    · obtain ⟨⟨x, r'⟩, hx, heq⟩ := map_eq_some_iff.1 h
      obtain ⟨rfl, rfl⟩ := Prod.mk.inj heq
      rw [scanString_append hx]
      rfl
    · cases hspace : skipSpace s with
      | nil => simp [hspace] at h
      | cons d rest =>
        simp only [hspace, skipSpace_append hspace] at h ⊢
        split_ifs at h ⊢ with hclose
        · cases h
          rfl
        · obtain ⟨⟨x, r'⟩, hx, heq⟩ := map_eq_some_iff.1 h
          obtain ⟨rfl, rfl⟩ := Prod.mk.inj heq
          rw [← cons_append, hElements _ _ _ hx m t hm]
          rfl
    · cases hspace : skipSpace s with
      | nil => simp [hspace] at h
      | cons d rest =>
        simp only [hspace, skipSpace_append hspace] at h ⊢
        split_ifs at h ⊢ with hclose
        · cases h
          rfl
        · obtain ⟨⟨x, r'⟩, hx, heq⟩ := map_eq_some_iff.1 h
          obtain ⟨rfl, rfl⟩ := Prod.mk.inj heq
          rw [← cons_append, hMembers _ _ _ hx m t hm]
          rfl
    · exact keyword_append h t
    · exact keyword_append h t
    · exact keyword_append h t
    all_goals
      have hr : r ≠ [] := hr.resolve_right fun hhead => hobject (Option.some.inj hhead)
      obtain ⟨⟨x, r'⟩, hx, heq⟩ := map_eq_some_iff.1 h
      obtain ⟨rfl, rfl⟩ := Prod.mk.inj heq
    · rw [scanNat_append hx hr]
      rfl
    · rw [← cons_append, scanNat_append hx hr]
      rfl

theorem elementsExtend_succ (hValue : ValueExtends n) (hElements : Extends scanElements n) :
    Extends scanElements (n + 1) := by
  intro s vs r h m t hm
  obtain ⟨m, rfl⟩ : ∃ k, m = k + 1 := ⟨m - 1, by omega⟩
  have hm : n ≤ m := by omega
  rw [scanElements] at h ⊢
  split at h
  · cases h
  rename_i value behind hvalue
  split at h
  · cases h
  rename_i d rest hspace
  have hbehind : behind ≠ [] := by
    rintro rfl
    cases hspace
  rw [hValue _ _ _ hvalue (.inl hbehind) m t hm]
  simp only [skipSpace_append hspace]
  split_ifs at h ⊢ with hclose hcomma
  · cases h
    rfl
  · obtain ⟨⟨x, r'⟩, hx, heq⟩ := map_eq_some_iff.1 h
    obtain ⟨rfl, rfl⟩ := Prod.mk.inj heq
    rw [hElements.skipSpace (scanElements_nil n) hx t hm]
    rfl

theorem membersExtend_succ (hValue : ValueExtends n) (hMembers : Extends scanMembers n) :
    Extends scanMembers (n + 1) := by
  intro s ms r h m t hm
  obtain ⟨m, rfl⟩ : ∃ k, m = k + 1 := ⟨m - 1, by omega⟩
  have hm : n ≤ m := by omega
  cases s with
  | nil => cases h
  | cons q s =>
    rw [cons_append]
    rw [scanMembers] at h ⊢
    split_ifs at h ⊢ with hquote
    split at h
    · cases h
    rename_i key behind hkey
    rw [scanString_append hkey]
    split at h
    · cases h
    rename_i colon text hspace
    simp only [skipSpace_append hspace]
    split_ifs at h ⊢ with hcolon
    split at h
    · cases h
    rename_i value behind' hvalue
    split at h
    · cases h
    rename_i d rest hspace'
    have hbehind : behind' ≠ [] := by
      rintro rfl
      cases hspace'
    have hlong : scanValue m (skipSpace (text ++ t)) = some (value, behind' ++ t) := by
      cases htext : skipSpace text with
      | nil => simp [htext] at hvalue
      | cons c rest =>
        rw [htext] at hvalue
        rw [skipSpace_append htext]
        exact hValue _ _ _ hvalue (.inl hbehind) m t hm
    simp only [hlong, skipSpace_append hspace']
    split_ifs at h ⊢ with hclose hcomma
    · cases h
      rfl
    · obtain ⟨⟨x, r'⟩, hx, heq⟩ := map_eq_some_iff.1 h
      obtain ⟨rfl, rfl⟩ := Prod.mk.inj heq
      rw [hMembers.skipSpace (scanMembers_nil n) hx t hm]
      rfl

/-- **A longer text.** -/
theorem scan_extends (n : ℕ) :
    ValueExtends n ∧ Extends scanElements n ∧ Extends scanMembers n := by
  induction n with
  | zero => exact ⟨nofun, nofun, nofun⟩
  | succ n ih =>
    obtain ⟨hValue, hElements, hMembers⟩ := ih
    exact ⟨valueExtends_succ hElements hMembers, elementsExtend_succ hValue hElements,
      membersExtend_succ hValue hMembers⟩

end Append

/-! ## Reading back -/

section ReadBack

variable {n : ℕ} {r : List Char}

/-- A text that no number goes on into. -/
def Stops (r : List Char) : Prop :=
  ∀ c ∈ r.head?, c.isDigit = false ∧ c ≠ '.' ∧ c ≠ 'e' ∧ c ≠ 'E'

theorem stops_nil : Stops [] := nofun

variable {c : Char} {ms : List (String × Json)}

theorem stops_cons {c : Char} (h : c ∈ [',', ']', '\x7d', '\n']) (r : List Char) :
    Stops (c :: r) := by
  intro d hd
  cases hd
  simp only [mem_cons, not_mem_nil, or_false] at h
  rcases h with rfl | rfl | rfl | rfl <;> decide

theorem hexValue_hexDigit : ∀ k < 16, hexValue (hexDigit k) = some k := by decide

theorem scanString_escapeChar (c : Char) (rest : List Char) :
    scanString (escapeChar c ++ rest) = (scanString rest).map fun x => (c :: x.1, x.2) := by
  rw [escapeChar]
  split_ifs with h₁ h₂ h₃ h₄ h₅ h₆ h₇ h₈
  · subst h₁
    rfl
  · subst h₂
    rfl
  · subst h₃
    rfl
  · subst h₄
    rfl
  · subst h₅
    rfl
  · obtain rfl : c = Char.ofNat 8 := by rw [← h₆, Char.ofNat_toNat]
    rfl
  · obtain rfl : c = Char.ofNat 12 := by rw [← h₇, Char.ofNat_toNat]
    rfl
  · have hhigh := hexValue_hexDigit (c.toNat / 16) (by omega)
    have hlow := hexValue_hexDigit (c.toNat % 16) (by omega)
    have hzero : hexValue '0' = some 0 := rfl
    have hcode : c.toNat / 16 * 16 + c.toNat % 16 = c.toNat := by omega
    have hplain : ¬ (55296 ≤ c.toNat ∧ c.toNat < 57344) := by omega
    simp [scanString, hhigh, hlow, hzero, hcode, hplain]
  · simp [scanString, h₂, h₈]

theorem scanString_dumpsString (cs : List Char) (r : List Char) :
    scanString (cs.flatMap escapeChar ++ '"' :: r) = some (cs, r) := by
  induction cs with
  | nil => rfl
  | cons c cs ih =>
    rw [flatMap_cons, append_assoc, scanString_escapeChar, ih]
    rfl

theorem head_toDigits {m : ℕ} (hm : 0 < m) : (Nat.toDigits 10 m).head? ≠ some '0' := by
  induction m using Nat.strong_induction_on with
  | _ m ih =>
    by_cases hsmall : m < 10
    · rw [Nat.toDigits_of_lt_base hsmall]
      interval_cases m <;> decide
    · have hrest := ih (m / 10) (by omega) (by omega)
      rw [Nat.toDigits_of_base_le (by norm_num) (by omega)]
      rwa [List.head?_append_of_ne_nil _ Nat.toDigits_ne_nil]

theorem scanNat_toDigits (m : ℕ) (hr : Stops r) :
    scanNat (Nat.toDigits 10 m ++ r) = some (m, r) := by
  have hdigits : ∀ d ∈ Nat.toDigits 10 m, d.isDigit = true := fun d hd =>
    Nat.isDigit_of_mem_toDigits (by norm_num) (by norm_num) hd
  have hspan : (Nat.toDigits 10 m ++ r).takeWhile Char.isDigit = Nat.toDigits 10 m ∧
      (Nat.toDigits 10 m ++ r).dropWhile Char.isDigit = r := by
    cases r with
    | nil => simpa using hdigits
    | cons c r => exact span_digits hdigits (hr c rfl).1 r
  have hzero : ¬ (Nat.toDigits 10 m = [] ∨
      (Nat.toDigits 10 m).head? = some '0' ∧ (Nat.toDigits 10 m).length ≠ 1) := by
    rintro (hnil | ⟨hhead, hlength⟩)
    · exact Nat.toDigits_ne_nil hnil
    · by_cases hm : 0 < m
      · exact head_toDigits hm hhead
      · obtain rfl : m = 0 := by omega
        exact hlength rfl
  have hstop : ¬ r.head? ∈ [some '.', some 'e', some 'E'] := by
    cases r with
    | nil => simp
    | cons c r => simpa using (hr c rfl).2
  rw [scanNat, hspan.1, hspan.2, if_neg hzero, if_neg hstop, Nat.ofDigitChars_ten_toDigits]

theorem toList_toString_int (m : ℤ) :
    (toString m).toList = if m < 0 then '-' :: Nat.toDigits 10 m.natAbs
      else Nat.toDigits 10 m.natAbs := by
  cases m with
  | ofNat k =>
    exact Text.toList_toString k
  | negSucc k =>
    rw [if_pos (Int.negSucc_lt_zero k)]
    show ("-" ++ (k + 1).repr).toList = _
    rw [String.toList_append, Nat.toList_repr]
    rfl

/-- The character that a numeral starts with starts nothing else. -/
theorem toDigits_head (m : ℕ) : ∃ c s, Nat.toDigits 10 m = c :: s ∧ c.isDigit = true := by
  cases hdigits : Nat.toDigits 10 m with
  | nil => exact absurd hdigits Nat.toDigits_ne_nil
  | cons c s =>
    refine ⟨c, s, rfl, Nat.isDigit_of_mem_toDigits (b := 10) (n := m) (by norm_num) (by norm_num) ?_⟩
    rw [hdigits]
    exact mem_cons_self

theorem ne_of_isDigit {d : Char} (hc : c.isDigit = true) (hd : d.isDigit = false) : c ≠ d := by
  rintro rfl
  rw [hc] at hd
  cases hd

theorem scanValue_int (m : ℤ) (hr : Stops r) :
    scanValue (n + 1) ((toString m).toList ++ r) = some (.int m, r) := by
  rw [toList_toString_int]
  split_ifs with hneg
  · rw [cons_append, scanValue]
    simp only [Char.reduceEq, ↓reduceIte]
    rw [scanNat_toDigits _ hr, map_some, show -(m.natAbs : ℤ) = m by omega]
  · obtain ⟨c, s, hdigits, hc⟩ := toDigits_head m.natAbs
    have hscan := scanNat_toDigits m.natAbs hr
    rw [hdigits, cons_append] at hscan
    have hm : (m.natAbs : ℤ) = m := by omega
    rw [hdigits, cons_append, scanValue]
    simp [ne_of_isDigit hc (d := '"') rfl, ne_of_isDigit hc (d := '[') rfl,
      ne_of_isDigit hc (d := '\x7b') rfl, ne_of_isDigit hc (d := 'n') rfl,
      ne_of_isDigit hc (d := 't') rfl, ne_of_isDigit hc (d := 'f') rfl,
      ne_of_isDigit hc (d := '-') rfl, hscan, hm]

/-- A canonical text starts with no blank and no closing bracket. -/
theorem dumps_head (v : Json) :
    ∃ c s, dumps v = c :: s ∧ isSpace c = false ∧ c ≠ ']' := by
  cases v with
  | null => exact ⟨_, _, by rw [dumps], rfl, by decide⟩
  | bool b => cases b <;> exact ⟨_, _, by rw [dumps], rfl, by decide⟩
  | str s => exact ⟨_, _, by rw [dumps, dumpsString, cons_append], rfl, by decide⟩
  | arr xs => exact ⟨_, _, by rw [dumps, cons_append], rfl, by decide⟩
  | obj ms => exact ⟨_, _, by rw [dumps, cons_append], rfl, by decide⟩
  | int m =>
    rw [dumps, toList_toString_int]
    split_ifs
    · exact ⟨_, _, rfl, rfl, by decide⟩
    · obtain ⟨c, s, hdigits, hc⟩ := toDigits_head m.natAbs
      refine ⟨c, s, hdigits, ?_, ne_of_isDigit hc rfl⟩
      simp [isSpace, ne_of_isDigit hc (d := ' ') rfl, ne_of_isDigit hc (d := '\t') rfl,
        ne_of_isDigit hc (d := '\n') rfl, ne_of_isDigit hc (d := '\r') rfl]

theorem skipSpace_cons (h : isSpace c = false) (r : List Char) :
    skipSpace (c :: r) = c :: r := by
  rw [skipSpace, dropWhile_cons_of_neg (by simp [h])]

theorem skipSpace_dumps (v : Json) (r : List Char) : skipSpace (dumps v ++ r) = dumps v ++ r := by
  obtain ⟨c, s, hdumps, hspace, -⟩ := dumps_head v
  rw [hdumps, cons_append, skipSpace_cons hspace]

theorem length_dumps_pos (v : Json) : 0 < (dumps v).length := by
  obtain ⟨c, s, hdumps, -⟩ := dumps_head v
  simp [hdumps]

theorem setMember_append {key : String} {value : Json} (h : ∀ m ∈ ms, m.1 < key) :
    setMember key value ms = ms ++ [(key, value)] := by
  induction ms with
  | nil => rfl
  | cons m ms ih =>
    have hm : m.1 < key := h m mem_cons_self
    rw [setMember, if_neg hm.ne, if_neg hm.asymm, ih fun x hx => h x (mem_cons_of_mem m hx)]
    rfl

theorem ofMembers_of_pairwise (h : (ms.map Prod.fst).Pairwise (· < ·)) :
    ofMembers ms = .obj ms := by
  rw [ofMembers]
  congr 1
  induction ms using List.reverseRecOn with
  | nil => rfl
  | append_singleton ms m ih =>
    rw [map_append, pairwise_append] at h
    rw [foldl_append, ih h.1]
    refine setMember_append fun x hx => h.2.2 x.1 (mem_map_of_mem hx) m.1 ?_
    exact mem_singleton_self m.1

theorem keys_dumpsMembers (ms : List (String × Json)) :
    (dumpsMembers ms).map Prod.fst = ms.map Prod.fst := by
  induction ms with
  | nil => rfl
  | cons m ms ih => rw [dumpsMembers, map_cons, map_cons, ih]

theorem sortKeys_of_pairwise {ms : List (String × List Char)}
    (h : (ms.map Prod.fst).Pairwise (· < ·)) : sortKeys ms = ms := by
  induction ms with
  | nil => rfl
  | cons m ms ih =>
    rw [map_cons, pairwise_cons] at h
    have hrest : sortKeys ms = ms := ih h.2
    rw [sortKeys, foldr_cons]
    rw [sortKeys] at hrest
    rw [hrest]
    cases ms with
    | nil => rfl
    | cons k ms => rw [insertKey, if_pos (h.1 k.1 mem_cons_self)]

mutual

/-- **Reading back**: a value in key order is read off its canonical text, with whatever is
behind it. -/
theorem scanValue_dumps : ∀ (v : Json) (n : ℕ) (r : List Char), Keyed v → (dumps v).length ≤ n →
    Stops r → scanValue n (dumps v ++ r) = some (v, r)
  | v, 0, r, _, hn, _ => by
    have hpos := length_dumps_pos v
    omega
  | .null, n + 1, r, _, _, _ => by
    simp [dumps, scanValue, keyword]
  | .bool true, n + 1, r, _, _, _ => by
    simp [dumps, scanValue, keyword]
  | .bool false, n + 1, r, _, _, _ => by
    simp [dumps, scanValue, keyword]
  | .int m, n + 1, r, _, _, hr => by
    rw [dumps]
    exact scanValue_int m hr
  | .str s, n + 1, r, _, _, _ => by
    simp [dumps, dumpsString, scanValue, scanString_dumpsString]
  | .arr [], n + 1, r, _, _, _ => by
    simp [dumps, dumpsList, commaSep, scanValue, skipSpace_cons (c := ']') rfl]
  | .arr (x :: xs), n + 1, r, hv, hn, hr => by
    rw [dumps, cons_append, length_cons, length_append, length_singleton] at hn
    have helements := scanElements_dumps x xs n r hv (by omega)
    obtain ⟨c, s, hhead, hspace, hclose⟩ := dumps_head x
    obtain ⟨s', hs'⟩ : ∃ s', commaSep (dumpsList (x :: xs)) ++ ']' :: r = c :: s' := by
      cases xs <;> simp [dumpsList, commaSep, hhead]
    rw [dumps, cons_append, cons_append, append_assoc, singleton_append,
      hs', scanValue]
    rw [hs'] at helements
    simp [skipSpace_cons hspace, hclose, helements]
  | .obj [], n + 1, r, _, _, _ => by
    simp [dumps, dumpsMembers, sortKeys, commaSep, scanValue, skipSpace_cons (c := '\x7d') rfl]
  | .obj (m :: ms), n + 1, r, hv, hn, hr => by
    obtain ⟨hkeys, hmembers⟩ := hv
    have hsort : sortKeys (dumpsMembers (m :: ms)) = dumpsMembers (m :: ms) :=
      sortKeys_of_pairwise (by rwa [keys_dumpsMembers])
    rw [dumps, hsort, cons_append, length_cons, length_append,
      length_singleton] at hn
    have hscan := scanMembers_dumps m ms n r hmembers (by omega)
    obtain ⟨s', hs'⟩ : ∃ s', commaSep ((dumpsMembers (m :: ms)).map member) ++ '\x7d' :: r =
        '"' :: s' := by
      cases ms <;> simp [dumpsMembers, commaSep, member, dumpsString]
    rw [dumps, hsort, cons_append, cons_append, append_assoc,
      singleton_append, hs', scanValue]
    rw [hs'] at hscan
    simp [skipSpace_cons (c := '"') rfl, hscan, ofMembers_of_pairwise hkeys]

theorem scanElements_dumps : ∀ (x : Json) (xs : List Json) (n : ℕ) (r : List Char),
    KeyedList (x :: xs) → (commaSep (dumpsList (x :: xs))).length + 1 ≤ n →
    scanElements n (commaSep (dumpsList (x :: xs)) ++ ']' :: r) = some (x :: xs, r)
  | x, [], n + 1, r, hv, hn => by
    have hvalue := scanValue_dumps x n (']' :: r) hv.1 (by simpa [dumpsList, commaSep] using hn)
      (stops_cons (by simp) r)
    simp [dumpsList, commaSep, scanElements, hvalue, skipSpace_cons (c := ']') rfl]
  | x, y :: ys, n + 1, r, hv, hn => by
    have hlength : (dumps x).length + ((commaSep (dumpsList (y :: ys))).length + 1) ≤ n := by
      simpa [dumpsList, commaSep] using hn
    have hpos := length_dumps_pos x
    have hrest := scanElements_dumps y ys n r hv.2 (by omega)
    have hvalue := scanValue_dumps x n (',' :: (commaSep (dumpsList (y :: ys)) ++ ']' :: r)) hv.1
      (by omega) (stops_cons (by simp) _)
    obtain ⟨c, s, hhead, hspace, -⟩ := dumps_head y
    obtain ⟨s', hs'⟩ : ∃ s', commaSep (dumpsList (y :: ys)) ++ ']' :: r = c :: s' := by
      cases ys <;> simp [dumpsList, commaSep, hhead]
    have htext : commaSep (dumpsList (x :: y :: ys)) ++ ']' :: r =
        dumps x ++ ',' :: (commaSep (dumpsList (y :: ys)) ++ ']' :: r) := by
      simp [dumpsList, commaSep]
    rw [htext, scanElements, hvalue, hs']
    rw [hs'] at hrest
    simp [skipSpace_cons (c := ',') rfl, skipSpace_cons hspace, hrest]

theorem scanMembers_dumps : ∀ (m : String × Json) (ms : List (String × Json)) (n : ℕ)
    (r : List Char), KeyedMembers (m :: ms) →
    (commaSep ((dumpsMembers (m :: ms)).map member)).length + 1 ≤ n →
    scanMembers n (commaSep ((dumpsMembers (m :: ms)).map member) ++ '\x7d' :: r) =
      some (m :: ms, r)
  | (k, x), [], n + 1, r, hv, hn => by
    have hlength : (dumps x).length ≤ n := by
      simp only [dumpsMembers, commaSep, member, map_cons, map_nil, length_append,
        length_cons] at hn
      omega
    have hvalue := scanValue_dumps x n ('\x7d' :: r) hv.1 hlength (stops_cons (by simp) r)
    simp [dumpsMembers, commaSep, member, dumpsString, scanMembers, scanString_dumpsString,
      skipSpace_dumps, hvalue, skipSpace_cons (c := ':') rfl, skipSpace_cons (c := '\x7d') rfl]
  | (k, x), (j, y) :: ms, n + 1, r, hv, hn => by
    have hlength : (dumps x).length +
        ((commaSep ((dumpsMembers ((j, y) :: ms)).map member)).length + 1) ≤ n := by
      simp only [dumpsMembers, commaSep, member, map_cons, length_append,
        length_cons] at hn ⊢
      omega
    have hrest := scanMembers_dumps (j, y) ms n r hv.2 (by omega)
    have hvalue := scanValue_dumps x n
      (',' :: (commaSep ((dumpsMembers ((j, y) :: ms)).map member) ++ '\x7d' :: r)) hv.1
      (by omega) (stops_cons (by simp) _)
    obtain ⟨s', hs'⟩ : ∃ s', commaSep ((dumpsMembers ((j, y) :: ms)).map member) ++ '\x7d' :: r =
        '"' :: s' := by
      cases ms <;> simp [dumpsMembers, commaSep, member, dumpsString]
    have htext : commaSep ((dumpsMembers ((k, x) :: (j, y) :: ms)).map member) ++ '\x7d' :: r =
        '"' :: (k.toList.flatMap escapeChar ++ '"' :: ':' :: (dumps x ++
          ',' :: (commaSep ((dumpsMembers ((j, y) :: ms)).map member) ++ '\x7d' :: r))) := by
      simp [dumpsMembers, commaSep, member, dumpsString]
    rw [htext, scanMembers, hs']
    rw [hs'] at hrest hvalue
    simp [scanString_dumpsString, skipSpace_cons (c := ':') rfl, skipSpace_dumps, hvalue,
      skipSpace_cons (c := ',') rfl, skipSpace_cons (c := '"') rfl, hrest]

end

/-- **The canonical text reads back**, with blanks behind it. -/
theorem loads_dumps {v : Json} (hv : Keyed v) {blank : List Char}
    (hblank : ∀ c ∈ blank, isSpace c = true) : loads (dumps v ++ blank) = some v := by
  have hstops : Stops blank := by
    intro c hc
    have hspace := hblank c (mem_of_mem_head? hc)
    simp only [isSpace, Bool.or_eq_true, beq_iff_eq] at hspace
    rcases hspace with ((rfl | rfl) | rfl) | rfl <;> decide
  have hskip : skipSpace blank = [] := dropWhile_eq_nil_iff.2 hblank
  rw [loads, skipSpace_dumps, scanValue_dumps v _ blank hv (by simp; omega) hstops]
  simp [hskip]

/-- **No proper part at the start of the text of an object is the text of a value.** -/
theorem loads_prefix (hv : Keyed (.obj ms)) {p t : List Char} (htext : dumps (.obj ms) = p ++ t)
    (ht : t ≠ []) : loads p = none := by
  cases p with
  | nil => rfl
  | cons c p =>
    obtain rfl : c = '\x7b' := by
      exact (List.cons.inj htext).1.symm
    by_contra hsome
    rw [loads, skipSpace_cons rfl] at hsome
    split at hsome
    · exact hsome rfl
    rename_i x r hscan
    have hlong := (scan_extends _).1 _ _ _ hscan (.inr rfl)
      ((dumps (.obj ms)).length + (p.length + 2)) t (by simp)
    rw [← htext] at hlong
    have hback := scanValue_dumps (.obj ms) ((dumps (.obj ms)).length + (p.length + 2)) [] hv
      (by omega) stops_nil
    rw [append_nil, hlong] at hback
    obtain ⟨-, hrest⟩ := Prod.mk.inj (Option.some.inj hback)
    exact ht (append_eq_nil_iff.1 hrest).2

end ReadBack

/-! ## What is read -/

theorem get?_ofMembers_eq_none {members : List (String × Json)} (h : key ∉ members.map Prod.fst) :
    (ofMembers members).get? key = none := by
  have hkept : ∀ l acc : List (String × Json), key ∉ l.map Prod.fst →
      (obj (l.foldl (fun acc m => setMember m.1 m.2 acc) acc)).get? key = (obj acc).get? key := by
    intro l
    induction l with
    | nil => exact fun _ _ => rfl
    | cons m rest ih =>
      intro acc hnot
      rw [map_cons, mem_cons, not_or] at hnot
      rw [foldl_cons, ih _ hnot.2, get?_setMember_ne _ _ hnot.1]
  exact hkept members [] h

theorem keyed_ofMembers {members : List (String × Json)} (h : KeyedMembers members) :
    Keyed (ofMembers members) :=
  keyed_foldl_setMember ⟨List.Pairwise.nil, trivial⟩ h

theorem keyed_keyword {word s r : List Char} (h : keyword word value s = some (v, r))
    (hvalue : Keyed value) : Keyed v := by
  rw [keyword] at h
  split_ifs at h
  obtain ⟨rfl, -⟩ := Prod.mk.inj (Option.some.inj h)
  exact hvalue

/-- What is read lists its members in key order. -/
theorem keyed_scan (n : ℕ) :
    (∀ s v r, scanValue n s = some (v, r) → Keyed v) ∧
      (∀ s vs r, scanElements n s = some (vs, r) → KeyedList vs) ∧
      ∀ s ms r, scanMembers n s = some (ms, r) → KeyedMembers ms := by
  induction n with
  | zero => exact ⟨nofun, nofun, fun s _ _ h => by cases s <;> cases h⟩
  | succ n ih =>
    obtain ⟨hvalue, helements, hmembers⟩ := ih
    refine ⟨?_, ?_, ?_⟩
    · intro s v r h
      cases s with
      | nil => cases h
      | cons c s =>
        rw [scanValue] at h
        split at h
        · obtain ⟨_, -, heq⟩ := map_eq_some_iff.1 h
          obtain ⟨rfl, -⟩ := Prod.mk.inj heq
          trivial
        split at h
        · split at h
          · cases h
          split at h
          · obtain ⟨rfl, -⟩ := Prod.mk.inj (Option.some.inj h)
            trivial
          · obtain ⟨⟨vs, r'⟩, hscan, heq⟩ := map_eq_some_iff.1 h
            obtain ⟨rfl, -⟩ := Prod.mk.inj heq
            exact helements _ _ _ hscan
        split at h
        · split at h
          · cases h
          split at h
          · obtain ⟨rfl, -⟩ := Prod.mk.inj (Option.some.inj h)
            exact ⟨List.Pairwise.nil, trivial⟩
          · obtain ⟨⟨ms, r'⟩, hscan, heq⟩ := map_eq_some_iff.1 h
            obtain ⟨rfl, -⟩ := Prod.mk.inj heq
            exact keyed_ofMembers (hmembers _ _ _ hscan)
        split at h
        · exact keyed_keyword h trivial
        split at h
        · exact keyed_keyword h trivial
        split at h
        · exact keyed_keyword h trivial
        split at h <;>
        · obtain ⟨_, -, heq⟩ := map_eq_some_iff.1 h
          obtain ⟨rfl, -⟩ := Prod.mk.inj heq
          trivial
    · intro s vs r h
      rw [scanElements] at h
      split at h
      · cases h
      rename_i value behind hscan
      split at h
      · cases h
      split at h
      · obtain ⟨rfl, -⟩ := Prod.mk.inj (Option.some.inj h)
        exact ⟨hvalue _ _ _ hscan, trivial⟩
      split at h
      · obtain ⟨⟨rest, r'⟩, hrest, heq⟩ := map_eq_some_iff.1 h
        obtain ⟨rfl, -⟩ := Prod.mk.inj heq
        exact ⟨hvalue _ _ _ hscan, helements _ _ _ hrest⟩
      · cases h
    · intro s ms r h
      cases s with
      | nil => cases h
      | cons q s =>
        rw [scanMembers] at h
        split at h
        · cases h
        split at h
        · cases h
        split at h
        · cases h
        split at h
        · cases h
        split at h
        · cases h
        rename_i value behind hscan
        split at h
        · cases h
        split at h
        · obtain ⟨rfl, -⟩ := Prod.mk.inj (Option.some.inj h)
          exact ⟨hvalue _ _ _ hscan, trivial⟩
        split at h
        · obtain ⟨⟨rest, r'⟩, hrest, heq⟩ := map_eq_some_iff.1 h
          obtain ⟨rfl, -⟩ := Prod.mk.inj heq
          exact ⟨hvalue _ _ _ hscan, hmembers _ _ _ hrest⟩
        · cases h

theorem keyed_of_loads {s : List Char} (h : loads s = some v) : Keyed v := by
  rw [loads] at h
  split at h
  · cases h
  · rename_i value rest hscan
    split_ifs at h
    exact Option.some.inj h ▸ (keyed_scan _).1 _ _ _ hscan

/-- **A value in key order is determined by its canonical text.** -/
theorem dumps_inj {w : Json} (hv : Keyed v) (hw : Keyed w) (h : dumps v = dumps w) : v = w := by
  have hread := loads_dumps hv (forall_mem_nil _)
  rw [h, loads_dumps hw (forall_mem_nil _)] at hread
  exact (Option.some.inj hread).symm

theorem utf8_injective : Function.Injective utf8 := by
  intro a b h
  have hbytes : a.flatMap String.utf8EncodeChar = b.flatMap String.utf8EncodeChar := by
    rw [utf8, utf8, ← map_flatMap, ← map_flatMap] at h
    exact map_injective_iff.2 (fun _ _ => UInt8.toNat_inj.1) h
  refine String.ofList_injective (String.toByteArray_inj.1 ?_)
  rw [String.toByteArray_ofList, String.toByteArray_ofList, List.utf8Encode, List.utf8Encode,
    hbytes]

end HarnessLabs.Json
