import Mathlib.Data.List.Basic

/-!
# Quoted path names

Path names with control characters, quotes, backslashes or bytes beyond ASCII are printed in double
quotes, with escapes as in C; all others are printed as they are.

* `cQuote` — the printed form of a name.
* `cQuote_injective` — **different names are printed differently.**
* `length_cQuote`, `isPlain_cQuote` — a name in quotes is longer, and is not plain itself.
-/

namespace HarnessLabs.CQuote

open List

/-- The bytes of a name. -/
abbrev Name := List ℕ

/-- The bytes with an escape letter. -/
def letters : List (ℕ × ℕ) :=
  [(7, 97), (8, 98), (9, 116), (10, 110), (11, 118), (12, 102), (13, 114), (34, 34), (92, 92)]

/-- Printed as it is; a number from 256 on is no byte. -/
def isPlainByte (b : ℕ) : Bool := 32 ≤ b && b < 127 && b != 34 && b != 92 || 256 ≤ b

/-- A backslash with a letter or three octal digits. -/
def escape (b : ℕ) : Name :=
  if isPlainByte b then [b]
  else
    match letters.lookup b with
    | some c => [92, c]
    | none => [92, 48 + b / 64, 48 + b / 8 % 8, 48 + b % 8]

def isPlain (name : Name) : Bool := name.all isPlainByte

def cQuote (name : Name) : Name :=
  if isPlain name then name else 34 :: name.flatMap escape ++ [34]

/-- One byte back from its escape. -/
def unescape : Name → Option (ℕ × Name)
  | [] => none
  | b :: rest =>
    if b ≠ 92 then some (b, rest)
    else
      match rest with
      | [] => none
      | c :: rest =>
        match letters.find? fun l => l.2 = c with
        | some l => some (l.1, rest)
        | none =>
          match rest with
          | d :: e :: rest => some (64 * (c - 48) + 8 * (d - 48) + (e - 48), rest)
          | _ => none

theorem find?_letter {b c : ℕ} (h : letters.lookup b = some c) :
    letters.find? (fun l => l.2 = c) = some (b, c) := by
  have hall : ∀ l ∈ letters, letters.find? (fun m => m.2 = l.2) = some l := by decide
  obtain ⟨front, back, hsplit, -⟩ := lookup_eq_some_iff.1 h
  exact hall (b, c) (hsplit ▸ mem_append_right _ mem_cons_self)

/-- The first octal digit is no letter. -/
theorem find?_digit {b : ℕ} (h : b < 256) : letters.find? (fun l => l.2 = 48 + b / 64) = none := by
  have hall : ∀ l ∈ letters, l.2 < 48 ∨ 51 < l.2 := by decide
  refine find?_eq_none.2 fun l hl heq => ?_
  have hl := hall l hl
  have heq := of_decide_eq_true heq
  omega

theorem unescape_escape (b : ℕ) (rest : Name) : unescape (escape b ++ rest) = some (b, rest) := by
  rw [escape]
  split_ifs with hplain
  · have hne : b ≠ 92 := fun h => absurd (h ▸ hplain) (by decide)
    exact if_pos hne
  · cases hb : letters.lookup b with
    | some c => simp [unescape, find?_letter hb]
    | none =>
      have hbyte : b < 256 := by
        refine Nat.lt_of_not_le fun hlarge => hplain ?_
        simp [isPlainByte, hlarge]
      simp only [cons_append, nil_append, unescape, ne_eq, not_true_eq_false, if_false,
        find?_digit hbyte, Option.some.injEq, Prod.mk.injEq, and_true]
      omega

theorem flatMap_escape_injective {x y : Name} (h : x.flatMap escape = y.flatMap escape) :
    x = y := by
  induction x generalizing y with
  | nil =>
    cases y with
    | nil => rfl
    | cons b y =>
      have hb := unescape_escape b (y.flatMap escape)
      rw [← flatMap_cons, ← h] at hb
      cases hb
  | cons b x ih =>
    have hb := unescape_escape b (x.flatMap escape)
    rw [← flatMap_cons, h] at hb
    cases y with
    | nil => cases hb
    | cons c y =>
      rw [flatMap_cons, unescape_escape] at hb
      obtain ⟨rfl, hrest⟩ := Prod.mk.inj (Option.some.inj hb)
      rw [ih hrest.symm]

/-- A name in quotes is not plain. -/
theorem isPlain_cQuote {name : Name} (h : isPlain name = false) :
    isPlain (cQuote name) = false := by
  rw [cQuote, h]
  rfl

/-- A name in quotes is longer. -/
theorem length_cQuote {name : Name} (h : isPlain name = false) :
    name.length < (cQuote name).length := by
  have hsum : name.length ≤ (name.flatMap escape).length := by
    clear h
    induction name with
    | nil => exact Nat.le_refl 0
    | cons b name ih =>
      have hescape : 1 ≤ (escape b).length := by
        rw [escape]
        split
        · exact Nat.le_refl 1
        · split <;> simp
      rw [flatMap_cons, length_append, length_cons]
      omega
  rw [cQuote, if_neg (by simp [h]), length_append, length_cons]
  omega

theorem cQuote_of_isPlain {name : Name} (h : isPlain name = true) : cQuote name = name := if_pos h

/-- **Different names are printed differently.** -/
theorem cQuote_injective : Function.Injective cQuote := by
  intro x y h
  cases hx : isPlain x <;> cases hy : isPlain y
  · simp only [cQuote, hx, hy, Bool.false_eq_true, if_false] at h
    exact flatMap_escape_injective (append_cancel_right (cons.inj h).2)
  · have hquoted := isPlain_cQuote hx
    rw [h, cQuote_of_isPlain hy, hy] at hquoted
    cases hquoted
  · have hquoted := isPlain_cQuote hy
    rw [← h, cQuote_of_isPlain hx, hx] at hquoted
    cases hquoted
  · rwa [cQuote_of_isPlain hx, cQuote_of_isPlain hy] at h

end HarnessLabs.CQuote
