import Mathlib.Tactic

/-!
# JSON values

JSON values without fractions, and their canonical text: members in key order, no blanks, every
character outside the escapes kept as it is. An object that stands for a dictionary of the program
lists its members in key order, so that equal dictionaries are equal values.

* `get?_ofMembers` — the members of an object built from a list.
* `dumps` — the canonical text.
-/

namespace HarnessLabs

inductive Json where
  | null
  | bool (b : Bool)
  | int (n : ℤ)
  | str (s : String)
  | arr (xs : List Json)
  | obj (members : List (String × Json))
  deriving Inhabited

namespace Json

/-! ## Decidable equality -/

mutual

def decEq : (a b : Json) → Decidable (a = b)
  | .null, .null => isTrue rfl
  | .bool a, .bool b => decidable_of_iff (a = b) (by simp)
  | .int a, .int b => decidable_of_iff (a = b) (by simp)
  | .str a, .str b => decidable_of_iff (a = b) (by simp)
  | .arr a, .arr b =>
    match decEqList a b with
    | isTrue h => isTrue (by rw [h])
    | isFalse h => isFalse (by simpa using h)
  | .obj a, .obj b =>
    match decEqMembers a b with
    | isTrue h => isTrue (by rw [h])
    | isFalse h => isFalse (by simpa using h)
  | .null, .bool _ | .null, .int _ | .null, .str _ | .null, .arr _ | .null, .obj _ =>
    isFalse nofun
  | .bool _, .null | .bool _, .int _ | .bool _, .str _ | .bool _, .arr _ | .bool _, .obj _ =>
    isFalse nofun
  | .int _, .null | .int _, .bool _ | .int _, .str _ | .int _, .arr _ | .int _, .obj _ =>
    isFalse nofun
  | .str _, .null | .str _, .bool _ | .str _, .int _ | .str _, .arr _ | .str _, .obj _ =>
    isFalse nofun
  | .arr _, .null | .arr _, .bool _ | .arr _, .int _ | .arr _, .str _ | .arr _, .obj _ =>
    isFalse nofun
  | .obj _, .null | .obj _, .bool _ | .obj _, .int _ | .obj _, .str _ | .obj _, .arr _ =>
    isFalse nofun

def decEqList : (a b : List Json) → Decidable (a = b)
  | [], [] => isTrue rfl
  | [], _ :: _ | _ :: _, [] => isFalse nofun
  | x :: xs, y :: ys =>
    match decEq x y, decEqList xs ys with
    | isTrue h, isTrue hs => isTrue (by rw [h, hs])
    | isFalse h, _ => isFalse fun e => h (List.cons.inj e).1
    | _, isFalse hs => isFalse fun e => hs (List.cons.inj e).2

def decEqMembers : (a b : List (String × Json)) → Decidable (a = b)
  | [], [] => isTrue rfl
  | [], _ :: _ | _ :: _, [] => isFalse nofun
  | (j, x) :: xs, (k, y) :: ys =>
    match decEq x y, decEqMembers xs ys with
    | isTrue h, isTrue hs => decidable_of_iff (j = k) (by simp [h, hs])
    | isFalse h, _ => isFalse fun e => h (Prod.mk.inj (List.cons.inj e).1).2
    | _, isFalse hs => isFalse fun e => hs (List.cons.inj e).2

end

instance : DecidableEq Json := decEq

/-! ## Members -/

/-- The value of a member of an object. -/
def get? : Json → String → Option Json
  | .obj members, key => (members.find? fun m => m.1 == key).map Prod.snd
  | _, _ => none

/-- The keys of an object, in their order. -/
def keys? : Json → Option (List String)
  | .obj members => some (members.map Prod.fst)
  | _ => none

def asStr? : Json → Option String
  | .str s => some s
  | _ => none

def asInt? : Json → Option ℤ
  | .int n => some n
  | _ => none

def asArr? : Json → Option (List Json)
  | .arr xs => some xs
  | _ => none

def asMembers? : Json → Option (List (String × Json))
  | .obj members => some members
  | _ => none

/-- Set a member, at its place in key order. -/
def setMember (key : String) (value : Json) : List (String × Json) → List (String × Json)
  | [] => [(key, value)]
  | (k, v) :: rest =>
    if k = key then (key, value) :: rest
    else if key < k then (key, value) :: (k, v) :: rest
    else (k, v) :: setMember key value rest

/-- The object of the given members, in key order. -/
def ofMembers (members : List (String × Json)) : Json :=
  .obj (members.foldl (fun acc m => setMember m.1 m.2 acc) [])

theorem get?_setMember_self (key : String) (value : Json) (members : List (String × Json)) :
    (obj (setMember key value members)).get? key = some value := by
  induction members with
  | nil => simp [setMember, get?]
  | cons m rest ih =>
    rw [setMember]
    split_ifs with hk hless
    · simp [get?]
    · simp [get?]
    · simp only [get?, List.find?_cons, beq_eq_false_iff_ne.2 hk] at ih ⊢
      exact ih

theorem get?_setMember_ne {key other : String} (value : Json) (members : List (String × Json))
    (h : other ≠ key) : (obj (setMember key value members)).get? other = (obj members).get? other := by
  induction members with
  | nil => simp [setMember, get?, Ne.symm h]
  | cons m rest ih =>
    obtain ⟨k, v⟩ := m
    rw [setMember]
    split_ifs with hk hless
    · subst hk
      simp [get?, Ne.symm h]
    · simp [get?, Ne.symm h]
    · simp only [get?, List.find?_cons] at ih ⊢
      cases k == other with
      | true => rfl
      | false => exact ih

/-- A member of an object that lists every key once. -/
theorem get?_ofMembers {members : List (String × Json)} (hnodup : (members.map Prod.fst).Nodup)
    {key : String} {value : Json} (hmem : (key, value) ∈ members) :
    (ofMembers members).get? key = some value := by
  have hkept : ∀ (l acc : List (String × Json)), key ∉ l.map Prod.fst →
      (obj (l.foldl (fun acc m => setMember m.1 m.2 acc) acc)).get? key = (obj acc).get? key := by
    intro l
    induction l with
    | nil => exact fun _ _ => rfl
    | cons m rest ih =>
      intro acc hnot
      rw [List.map_cons, List.mem_cons, not_or] at hnot
      rw [List.foldl_cons, ih _ hnot.2, get?_setMember_ne _ _ hnot.1]
  have hset : ∀ (l acc : List (String × Json)), (l.map Prod.fst).Nodup → (key, value) ∈ l →
      (obj (l.foldl (fun acc m => setMember m.1 m.2 acc) acc)).get? key = some value := by
    intro l
    induction l with
    | nil => intro _ _ h; cases h
    | cons m rest ih =>
      intro acc hl hm
      obtain ⟨hfirst, hrest⟩ := List.nodup_cons.1 hl
      rcases List.mem_cons.1 hm with rfl | hm
      · rw [List.foldl_cons, hkept _ _ hfirst, get?_setMember_self]
      · rw [List.foldl_cons]
        exact ih _ hrest hm
  exact hset members [] hnodup hmem

/-! ## Canonical text -/

def hexDigit (n : ℕ) : Char :=
  ['0', '1', '2', '3', '4', '5', '6', '7', '8', '9', 'a', 'b', 'c', 'd', 'e', 'f'].getD n '0'

def escapeChar (c : Char) : List Char :=
  if c = '"' then ['\\', '"']
  else if c = '\\' then ['\\', '\\']
  else if c = '\n' then ['\\', 'n']
  else if c = '\r' then ['\\', 'r']
  else if c = '\t' then ['\\', 't']
  else if c.toNat = 8 then ['\\', 'b']
  else if c.toNat = 12 then ['\\', 'f']
  else if c.toNat < 32 then
    ['\\', 'u', '0', '0', hexDigit (c.toNat / 16), hexDigit (c.toNat % 16)]
  else [c]

def dumpsString (s : String) : List Char := '"' :: s.toList.flatMap escapeChar ++ ['"']

def insertKey (m : String × List Char) : List (String × List Char) → List (String × List Char)
  | [] => [m]
  | k :: rest => if m.1 < k.1 then m :: k :: rest else k :: insertKey m rest

/-- Members in key order, each with its text. -/
def sortKeys (members : List (String × List Char)) : List (String × List Char) :=
  members.foldr insertKey []

def member (m : String × List Char) : List Char := dumpsString m.1 ++ ':' :: m.2

def commaSep : List (List Char) → List Char
  | [] => []
  | [x] => x
  | x :: y :: rest => x ++ ',' :: commaSep (y :: rest)

mutual

/-- The canonical text of a value, character by character. -/
def dumps : Json → List Char
  | .null => ['n', 'u', 'l', 'l']
  | .bool true => ['t', 'r', 'u', 'e']
  | .bool false => ['f', 'a', 'l', 's', 'e']
  | .int n => (toString n).toList
  | .str s => dumpsString s
  | .arr xs => '[' :: commaSep (dumpsList xs) ++ [']']
  | .obj members => '\x7b' :: commaSep ((sortKeys (dumpsMembers members)).map member) ++ ['\x7d']

def dumpsList : List Json → List (List Char)
  | [] => []
  | x :: xs => dumps x :: dumpsList xs

def dumpsMembers : List (String × Json) → List (String × List Char)
  | [] => []
  | (k, x) :: xs => (k, dumps x) :: dumpsMembers xs

end

/-! ## UTF-8 -/

/-- The bytes of a text in UTF-8. -/
def utf8 (cs : List Char) : List ℕ := cs.flatMap fun c => (String.utf8EncodeChar c).map UInt8.toNat

end Json

end HarnessLabs
