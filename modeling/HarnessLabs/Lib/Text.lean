import Mathlib.Tactic

/-!
# Numerals and separators in texts

Decimal numerals, bare or padded with zeros, determine their number, and a text splits in one way
at the first separator.

* `toString_inj`, `padded_inj` — equal numerals, equal numbers.
* `exists_fresh` — a numbered text outside a list.
* `split_at_first`, `split_at_last` — the parts around the first or the last separator are
  determined.
-/

namespace HarnessLabs.Text

theorem toList_toString (n : ℕ) : (toString n).toList = Nat.toDigits 10 n := by
  rw [Nat.toString_eq_repr, Nat.toList_repr]

theorem toDigits_inj {m n : ℕ} (h : Nat.toDigits 10 m = Nat.toDigits 10 n) : m = n := by
  have hv := congrArg (Nat.ofDigitChars 10 · 0) h
  simpa only [Nat.ofDigitChars_ten_toDigits] using hv

theorem toString_inj {m n : ℕ} (h : toString m = toString n) : m = n := by
  have hl := congrArg String.toList h
  rw [toList_toString, toList_toString] at hl
  exact toDigits_inj hl

/-- A numbered text that the list has not. -/
theorem exists_fresh (start : String) (used : List String) : ∃ n : ℕ, start ++ toString n ∉ used := by
  have hinj : Function.Injective fun n : ℕ => start ++ toString n := by
    intro m n h
    exact toString_inj ((String.append_right_inj start).1 h)
  obtain ⟨_, ⟨n, rfl⟩, hn⟩ :=
    (Set.infinite_range_of_injective hinj).exists_notMem_finset used.toFinset
  exact ⟨n, by simpa using hn⟩

/-- The numeral with zeros in front, to the given width. -/
def padded (width n : ℕ) : List Char :=
  List.replicate (width - (Nat.toDigits 10 n).length) '0' ++ Nat.toDigits 10 n

theorem padded_inj {width m n : ℕ} (h : padded width m = padded width n) : m = n := by
  have hv := congrArg (Nat.ofDigitChars 10 · 0) h
  simpa only [padded, Nat.ofDigitChars_append, Nat.ofDigitChars_replicate_zero, Nat.mul_zero,
    Nat.ofDigitChars_ten_toDigits] using hv

theorem notMem_toDigits {c : Char} (hc : c.isDigit = false) (n : ℕ) : c ∉ Nat.toDigits 10 n := by
  intro hmem
  have hd := Nat.isDigit_of_mem_toDigits (by decide) (by decide) hmem
  rw [hc] at hd
  cases hd

/-- Two texts that agree agree before and behind their first separator. -/
theorem split_at_first {c : Char} {a b a' b' : List Char} (ha : c ∉ a) (ha' : c ∉ a')
    (h : a ++ c :: b = a' ++ c :: b') : a = a' ∧ b = b' := by
  induction a generalizing a' with
  | nil =>
    cases a' with
    | nil => exact ⟨rfl, (List.cons.inj h).2⟩
    | cons x a' => exact absurd ((List.cons.inj h).1 ▸ List.mem_cons_self) ha'
  | cons x a ih =>
    cases a' with
    | nil => exact absurd ((List.cons.inj h).1 ▸ List.mem_cons_self) ha
    | cons y a' =>
      obtain ⟨rfl, hrest⟩ := List.cons.inj h
      obtain ⟨rfl, rfl⟩ := ih (fun hm => ha (List.mem_cons_of_mem _ hm))
        (fun hm => ha' (List.mem_cons_of_mem _ hm)) hrest
      exact ⟨rfl, rfl⟩

/-- Two texts that agree agree before and behind their last separator. -/
theorem split_at_last {c : Char} {a b a' b' : List Char} (hb : c ∉ b) (hb' : c ∉ b')
    (h : a ++ c :: b = a' ++ c :: b') : a = a' ∧ b = b' := by
  have hreverse := congrArg List.reverse h
  simp only [List.reverse_append, List.reverse_cons, List.append_assoc, List.singleton_append]
    at hreverse
  obtain ⟨htail, hhead⟩ := split_at_first (by simpa using hb) (by simpa using hb') hreverse
  exact ⟨List.reverse_injective hhead, List.reverse_injective htail⟩

end HarnessLabs.Text
