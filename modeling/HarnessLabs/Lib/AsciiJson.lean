import HarnessLabs.Lib.JsonText

/-!
# Canonical texts in ASCII

JSON texts as `json.dumps` writes them with sorted keys, without blanks and with `ensure_ascii`. The
numbers are of any type that comes with their texts.

* `encode` — the text of a value.
* `Numerals` — what the texts of numbers have to meet.
* `encode_append_inj` — **a text, with something behind it that ends a value, determines the value.**
* `encode_inj` — so does the text alone.
-/

namespace HarnessLabs.AsciiJson

open List
open Json (hexDigit hexValue)

/-! ## Strings -/

/-- Four hexadecimal digits. -/
def hex4 (n : ℕ) : List Char :=
  [hexDigit (n / 4096 % 16), hexDigit (n / 256 % 16), hexDigit (n / 16 % 16), hexDigit (n % 16)]

/-- One character of a string. Those beyond the basic plane are written as a surrogate pair. -/
def escape (c : Char) : List Char :=
  if c = '"' then ['\\', '"']
  else if c = '\\' then ['\\', '\\']
  else if c = '\n' then ['\\', 'n']
  else if c = '\r' then ['\\', 'r']
  else if c = '\t' then ['\\', 't']
  else if c.toNat = 8 then ['\\', 'b']
  else if c.toNat = 12 then ['\\', 'f']
  else if 32 ≤ c.toNat ∧ c.toNat < 127 then [c]
  else if c.toNat < 65536 then '\\' :: 'u' :: hex4 c.toNat
  else
    '\\' :: 'u' :: hex4 (0xd800 + (c.toNat - 65536) / 1024) ++
      '\\' :: 'u' :: hex4 (0xdc00 + (c.toNat - 65536) % 1024)

def string (s : String) : List Char := '"' :: s.toList.flatMap escape ++ ['"']

/-! ### Reading one character back -/

def readHex4 : List Char → Option (ℕ × List Char)
  | a :: b :: c :: d :: rest => do
    return ((((← hexValue a) * 16 + (← hexValue b)) * 16 + (← hexValue c)) * 16 + (← hexValue d),
      rest)
  | _ => none

/-- The first character of the rest of a string, and what is behind it. -/
def unescape : List Char → Option (Char × List Char)
  | '\\' :: 'u' :: rest =>
    match readHex4 rest with
    | none => none
    | some (high, rest) =>
      if 0xd800 ≤ high ∧ high < 0xdc00 then
        match rest with
        | '\\' :: 'u' :: rest =>
          (readHex4 rest).map fun r =>
            (Char.ofNat ((high - 0xd800) * 1024 + (r.1 - 0xdc00) + 65536), r.2)
        | _ => none
      else some (Char.ofNat high, rest)
  | '\\' :: c :: rest => (Json.escapedChar c).map fun e => (e, rest)
  | c :: rest => if c = '"' then none else some (c, rest)
  | [] => none

theorem readHex4_hex4 {n : ℕ} (hn : n < 65536) (rest : List Char) :
    readHex4 (hex4 n ++ rest) = some (n, rest) := by
  have hdigit (k : ℕ) : hexValue (hexDigit (k % 16)) = some (k % 16) :=
    Json.hexValue_hexDigit (k % 16) (Nat.mod_lt k (by norm_num))
  simp only [hex4, cons_append, nil_append, readHex4, hdigit]
  have hvalue : ((n / 4096 % 16 * 16 + n / 256 % 16) * 16 + n / 16 % 16) * 16 + n % 16 = n := by
    omega
  simp [hvalue]

theorem unescape_escape (c : Char) (rest : List Char) :
    unescape (escape c ++ rest) = some (c, rest) := by
  have hofNat : Char.ofNat c.toNat = c := Char.ofNat_toNat c
  rw [escape]
  split_ifs with hquote hslash hfeed hreturn htab hback hform hplain hbasic
  · rw [hquote]
    rfl
  · rw [hslash]
    rfl
  · rw [hfeed]
    rfl
  · rw [hreturn]
    rfl
  · rw [htab]
    rfl
  · rw [← hofNat, hback]
    rfl
  · rw [← hofNat, hform]
    rfl
  · rw [singleton_append, unescape]
    · rw [if_neg hquote]
    · rintro _ rfl
      exact absurd rfl hslash
    · rintro _ _ rfl
      exact absurd rfl hslash
  · have hrange : ¬ (0xd800 ≤ c.toNat ∧ c.toNat < 0xdc00) := by
      rcases c.valid with hlow | hhigh
      · have : c.toNat < 0xd800 := hlow
        omega
      · have : 0xdfff < c.toNat := hhigh.1
        omega
    rw [cons_append, cons_append, unescape, readHex4_hex4 hbasic]
    dsimp only
    rw [if_neg hrange, hofNat]
  · have hlt : c.toNat < 0x110000 := by
      rcases c.valid with hlow | hhigh
      · have : c.toNat < 0xd800 := hlow
        omega
      · exact hhigh.2
    have hhigh : 0xd800 ≤ 0xd800 + (c.toNat - 65536) / 1024 ∧
        0xd800 + (c.toNat - 65536) / 1024 < 0xdc00 := by
      omega
    have hvalue : (0xd800 + (c.toNat - 65536) / 1024 - 0xd800) * 1024 +
        (0xdc00 + (c.toNat - 65536) % 1024 - 0xdc00) + 65536 = c.toNat := by
      omega
    rw [cons_append, cons_append, cons_append, cons_append, append_assoc,
      unescape, readHex4_hex4 (by omega)]
    dsimp only
    rw [if_pos hhigh, cons_append, cons_append]
    simp only [readHex4_hex4 (show 0xdc00 + (c.toNat - 65536) % 1024 < 65536 by omega),
      Option.map_some, hvalue, hofNat]

theorem escape_append_inj {c d : Char} {s t : List Char} (h : escape c ++ s = escape d ++ t) :
    c = d ∧ s = t := by
  have hread := unescape_escape c s
  rw [h, unescape_escape d t] at hread
  obtain ⟨hc, hs⟩ := Prod.mk.inj (Option.some.inj hread)
  exact ⟨hc.symm, hs.symm⟩

/-- No character begins with the closing quote. -/
theorem escape_append_ne (c : Char) (s r : List Char) : escape c ++ s ≠ '"' :: r := by
  intro h
  have hread := unescape_escape c s
  rw [h] at hread
  cases hread

theorem flatMap_escape_inj {s t : List Char} {r r' : List Char}
    (h : s.flatMap escape ++ '"' :: r = t.flatMap escape ++ '"' :: r') : s = t ∧ r = r' := by
  induction s generalizing t with
  | nil =>
    cases t with
    | nil => exact ⟨rfl, (List.cons.inj h).2⟩
    | cons d t =>
      rw [flatMap_cons, append_assoc] at h
      exact absurd h.symm (escape_append_ne d _ r)
  | cons c s ih =>
    cases t with
    | nil =>
      rw [flatMap_cons, append_assoc] at h
      exact absurd h (escape_append_ne c _ r')
    | cons d t =>
      rw [flatMap_cons, flatMap_cons, append_assoc, append_assoc] at h
      obtain ⟨rfl, hrest⟩ := escape_append_inj h
      obtain ⟨rfl, hr⟩ := ih hrest
      exact ⟨rfl, hr⟩

theorem string_append_inj {s t : String} {r r' : List Char} (h : string s ++ r = string t ++ r') :
    s = t ∧ r = r' := by
  rw [string, string, append_assoc, append_assoc, singleton_append,
    singleton_append, cons_append, cons_append] at h
  obtain ⟨hs, hr⟩ := flatMap_escape_inj (List.cons.inj h).2
  exact ⟨String.toList_injective hs, hr⟩

/-! ## Values -/

/-- JSON values. The members of an object are in key order. -/
inductive Value (N : Type) where
  | null
  | bool (b : Bool)
  | num (n : N)
  | str (s : String)
  | arr (xs : List (Value N))
  | obj (members : List (String × Value N))

variable {N : Type}

mutual

def encode (numeral : N → List Char) : Value N → List Char
  | .null => ['n', 'u', 'l', 'l']
  | .bool true => ['t', 'r', 'u', 'e']
  | .bool false => ['f', 'a', 'l', 's', 'e']
  | .num n => numeral n
  | .str s => string s
  | .arr [] => ['[', ']']
  | .arr (x :: xs) => '[' :: encode numeral x ++ encodeElements numeral xs
  | .obj [] => ['\x7b', '\x7d']
  | .obj ((key, x) :: members) =>
    '\x7b' :: string key ++ ':' :: encode numeral x ++ encodeMembers numeral members

/-- The elements behind the first one. -/
def encodeElements (numeral : N → List Char) : List (Value N) → List Char
  | [] => [']']
  | x :: xs => ',' :: encode numeral x ++ encodeElements numeral xs

/-- The members behind the first one. -/
def encodeMembers (numeral : N → List Char) : List (String × Value N) → List Char
  | [] => ['\x7d']
  | (key, x) :: members =>
    ',' :: string key ++ ':' :: encode numeral x ++ encodeMembers numeral members

end

def isDelimiter (c : Char) : Bool := c == ',' || c == ']' || c == '\x7d'

/-- The texts of numbers differ, hold nothing that ends a value, and begin like no other value. -/
structure Numerals (numeral : N → List Char) : Prop where
  injective : Function.Injective numeral
  delimiters : ∀ n, ∀ c ∈ numeral n, isDelimiter c = false
  head : ∀ n, ∃ c rest, numeral n = c :: rest ∧ c ∉ ['n', 't', 'f', '"', '[', '\x7b', ']', '\x7d']

/-- What may stand behind a value. -/
def Ends (r : List Char) : Prop := ∀ c ∈ r.head?, isDelimiter c = true

/-- The kind of a value, as its first character tells it. -/
def kind : Value N → Option Char
  | .null => some 'n'
  | .bool b => some (if b then 't' else 'f')
  | .num _ => none
  | .str _ => some '"'
  | .arr _ => some '['
  | .obj _ => some '\x7b'

section Encode

variable {numeral : N → List Char} {r r' : List Char}

theorem ends_nil : Ends [] := nofun

theorem ends_elements (xs : List (Value N)) (r : List Char) :
    Ends (encodeElements numeral xs ++ r) := by
  cases xs <;>
  · intro c hc
    simp only [encodeElements, cons_append, List.head?_cons, Option.mem_some_iff] at hc
    rw [← hc]
    rfl

theorem ends_members (ms : List (String × Value N)) (r : List Char) :
    Ends (encodeMembers numeral ms ++ r) := by
  cases ms <;>
  · intro c hc
    simp only [encodeMembers, cons_append, List.head?_cons, Option.mem_some_iff] at hc
    rw [← hc]
    rfl

theorem numeral_append_inj (hnum : Numerals numeral) {m n : N} (hr : Ends r) (hr' : Ends r')
    (h : numeral m ++ r = numeral n ++ r') : m = n ∧ r = r' := by
  have htake (k : N) (s : List Char) (hs : Ends s) :
      (numeral k ++ s).takeWhile (fun c => !isDelimiter c) = numeral k := by
    rw [takeWhile_append_of_pos fun c hc => by simp [hnum.delimiters k c hc]]
    cases s with
    | nil => simp
    | cons c s =>
      have hc := hs c rfl
      simp [hc]
  have hsame : numeral m = numeral n := by
    rw [← htake m r hr, h, htake n r' hr']
  rw [hsame] at h
  exact ⟨hnum.injective hsame, append_cancel_left h⟩

theorem kind_of_head (hnum : Numerals numeral) (v : Value N) :
    ∃ c rest, encode numeral v = c :: rest ∧ c ≠ ']' ∧ c ≠ '\x7d' ∧
      (kind v = some c ∨ kind v = none ∧ c ∉ ['n', 't', 'f', '"', '[', '\x7b']) := by
  cases v with
  | null => exact ⟨_, _, by rw [encode], by decide, by decide, .inl rfl⟩
  | bool b =>
    cases b with
    | false => exact ⟨'f', _, by rw [encode], by decide, by decide, .inl rfl⟩
    | true => exact ⟨'t', _, by rw [encode], by decide, by decide, .inl rfl⟩
  | num n =>
    obtain ⟨c, rest, hnumeral, hhead⟩ := hnum.head n
    simp only [mem_cons, not_mem_nil, or_false, not_or] at hhead ⊢
    exact ⟨c, rest, by rw [encode, hnumeral], by tauto, by tauto, .inr ⟨rfl, by tauto⟩⟩
  | str s => exact ⟨_, _, by rw [encode, string, cons_append], by decide, by decide, .inl rfl⟩
  | arr xs =>
    cases xs with
    | nil => exact ⟨_, _, by rw [encode], by decide, by decide, .inl rfl⟩
    | cons x xs =>
      exact ⟨_, _, by rw [encode, cons_append], by decide, by decide, .inl rfl⟩
  | obj ms =>
    cases ms with
    | nil => exact ⟨_, _, by rw [encode], by decide, by decide, .inl rfl⟩
    | cons m ms =>
      exact ⟨_, _, by rw [encode, cons_append, cons_append], by decide, by decide, .inl rfl⟩

theorem kind_eq (hnum : Numerals numeral) {v w : Value N}
    (h : encode numeral v ++ r = encode numeral w ++ r') : kind v = kind w := by
  obtain ⟨c, rest, hv, -, -, hkind⟩ := kind_of_head hnum v
  obtain ⟨d, rest', hw, -, -, hkind'⟩ := kind_of_head hnum w
  rw [hv, hw] at h
  obtain rfl : c = d := (List.cons.inj h).1
  have hlisted (u : Value N) (hu : kind u = some c) : c ∈ ['n', 't', 'f', '"', '[', '\x7b'] := by
    cases u with
    | bool b => cases b <;> (obtain rfl := Option.some.inj hu; decide)
    | num n => cases hu
    | _ =>
      cases hu
      decide
  rcases hkind with hv | ⟨hv, hnot⟩ <;> rcases hkind' with hw | ⟨hw, hnot'⟩
  · rw [hv, hw]
  · exact absurd (hlisted v hv) hnot'
  · exact absurd (hlisted w hw) hnot
  · rw [hv, hw]

mutual

/-- **A text with the end of a value behind it determines the value.** -/
theorem encode_append_inj (hnum : Numerals numeral) : ∀ (v w : Value N) (r r' : List Char),
    Ends r → Ends r' → encode numeral v ++ r = encode numeral w ++ r' → v = w ∧ r = r'
  | .null, w, r, r', _, _, h => by
    have hkind := kind_eq hnum h
    cases w with
    | null => exact ⟨rfl, append_cancel_left h⟩
    | bool b => cases b <;> simp [kind] at hkind
    | _ => simp [kind] at hkind
  | .bool b, w, r, r', _, _, h => by
    have hkind := kind_eq hnum h
    cases w with
    | bool b' =>
      obtain rfl : b = b' := by
        cases b <;> cases b' <;> simp_all [kind]
      exact ⟨rfl, append_cancel_left h⟩
    | _ => cases b <;> simp [kind] at hkind
  | .num n, w, r, r', hr, hr', h => by
    have hkind := kind_eq hnum h
    cases w with
    | num n' =>
      rw [encode, encode] at h
      obtain ⟨rfl, hrest⟩ := numeral_append_inj hnum hr hr' h
      exact ⟨rfl, hrest⟩
    | _ => simp [kind] at hkind
  | .str s, w, r, r', _, _, h => by
    have hkind := kind_eq hnum h
    cases w with
    | str s' =>
      rw [encode, encode] at h
      obtain ⟨rfl, hrest⟩ := string_append_inj h
      exact ⟨rfl, hrest⟩
    | bool b => cases b <;> simp [kind] at hkind
    | _ => simp [kind] at hkind
  | .arr xs, w, r, r', _, _, h => by
    have hkind := kind_eq hnum h
    cases w with
    | arr ys => exact array_append_inj hnum xs ys r r' h
    | bool b => cases b <;> simp [kind] at hkind
    | _ => simp [kind] at hkind
  | .obj ms, w, r, r', _, _, h => by
    have hkind := kind_eq hnum h
    cases w with
    | obj ns => exact object_append_inj hnum ms ns r r' h
    | bool b => cases b <;> simp [kind] at hkind
    | _ => simp [kind] at hkind

theorem array_append_inj (hnum : Numerals numeral) : ∀ (xs ys : List (Value N)) (r r' : List Char),
    encode numeral (.arr xs) ++ r = encode numeral (.arr ys) ++ r' →
      (Value.arr xs = .arr ys) ∧ r = r'
  | [], ys, r, r', h => by
    cases ys with
    | nil => exact ⟨rfl, append_cancel_left h⟩
    | cons y ys =>
      obtain ⟨c, rest, hy, hne, -⟩ := kind_of_head hnum y
      rw [encode, encode, hy] at h
      exact absurd (List.cons.inj (List.cons.inj h).2).1.symm hne
  | x :: xs, ys, r, r', h => by
    cases ys with
    | nil =>
      obtain ⟨c, rest, hx, hne, -⟩ := kind_of_head hnum x
      rw [encode, encode, hx] at h
      exact absurd (List.cons.inj (List.cons.inj h).2).1 hne
    | cons y ys =>
      rw [encode, encode, append_assoc, append_assoc, cons_append,
        cons_append] at h
      obtain ⟨rfl, hrest⟩ := encode_append_inj hnum x y _ _ (ends_elements xs r)
        (ends_elements ys r') (List.cons.inj h).2
      obtain ⟨rfl, hr⟩ := elements_append_inj hnum xs ys r r' hrest
      exact ⟨rfl, hr⟩

theorem elements_append_inj (hnum : Numerals numeral) :
    ∀ (xs ys : List (Value N)) (r r' : List Char),
      encodeElements numeral xs ++ r = encodeElements numeral ys ++ r' → xs = ys ∧ r = r'
  | [], ys, r, r', h => by
    cases ys with
    | nil => exact ⟨rfl, append_cancel_left h⟩
    | cons y ys =>
      rw [encodeElements, encodeElements] at h
      exact absurd (List.cons.inj h).1 (by decide)
  | x :: xs, ys, r, r', h => by
    cases ys with
    | nil =>
      rw [encodeElements, encodeElements] at h
      exact absurd (List.cons.inj h).1 (by decide)
    | cons y ys =>
      rw [encodeElements, encodeElements, append_assoc, append_assoc, cons_append,
        cons_append] at h
      obtain ⟨rfl, hrest⟩ := encode_append_inj hnum x y _ _ (ends_elements xs r)
        (ends_elements ys r') (List.cons.inj h).2
      obtain ⟨rfl, hr⟩ := elements_append_inj hnum xs ys r r' hrest
      exact ⟨rfl, hr⟩

theorem object_append_inj (hnum : Numerals numeral) :
    ∀ (ms ns : List (String × Value N)) (r r' : List Char),
      encode numeral (.obj ms) ++ r = encode numeral (.obj ns) ++ r' →
        (Value.obj ms = .obj ns) ∧ r = r'
  | [], ns, r, r', h => by
    cases ns with
    | nil => exact ⟨rfl, append_cancel_left h⟩
    | cons n ns =>
      rw [encode, encode, string] at h
      exact absurd (List.cons.inj (List.cons.inj h).2).1 (by decide)
  | (key, x) :: ms, ns, r, r', h => by
    cases ns with
    | nil =>
      rw [encode, encode, string] at h
      exact absurd (List.cons.inj (List.cons.inj h).2).1 (by decide)
    | cons n ns =>
      obtain ⟨key', y⟩ := n
      simp only [encode, cons_append, append_assoc] at h
      obtain ⟨rfl, hvalue⟩ := string_append_inj (List.cons.inj h).2
      obtain ⟨rfl, hrest⟩ := encode_append_inj hnum x y _ _ (ends_members ms r)
        (ends_members ns r') (List.cons.inj hvalue).2
      obtain ⟨rfl, hr⟩ := members_append_inj hnum ms ns r r' hrest
      exact ⟨rfl, hr⟩

theorem members_append_inj (hnum : Numerals numeral) :
    ∀ (ms ns : List (String × Value N)) (r r' : List Char),
      encodeMembers numeral ms ++ r = encodeMembers numeral ns ++ r' → ms = ns ∧ r = r'
  | [], ns, r, r', h => by
    cases ns with
    | nil => exact ⟨rfl, append_cancel_left h⟩
    | cons n ns =>
      rw [encodeMembers, encodeMembers] at h
      exact absurd (List.cons.inj h).1 (by decide)
  | (key, x) :: ms, ns, r, r', h => by
    cases ns with
    | nil =>
      rw [encodeMembers, encodeMembers] at h
      exact absurd (List.cons.inj h).1 (by decide)
    | cons n ns =>
      obtain ⟨key', y⟩ := n
      simp only [encodeMembers, cons_append, append_assoc] at h
      obtain ⟨rfl, hvalue⟩ := string_append_inj (List.cons.inj h).2
      obtain ⟨rfl, hrest⟩ := encode_append_inj hnum x y _ _ (ends_members ms r)
        (ends_members ns r') (List.cons.inj hvalue).2
      obtain ⟨rfl, hr⟩ := members_append_inj hnum ms ns r r' hrest
      exact ⟨rfl, hr⟩

end

theorem encode_inj (hnum : Numerals numeral) {v w : Value N}
    (h : encode numeral v = encode numeral w) : v = w := by
  refine (encode_append_inj hnum v w [] [] ends_nil ends_nil ?_).1
  rw [h]

end Encode

end HarnessLabs.AsciiJson
