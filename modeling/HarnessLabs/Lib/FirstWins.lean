import HarnessLabs.Lib.Dict

/-!
# Stores where the first entry of a key stays

Calls offer entries to a dictionary that keeps what it has.

* `keep` — an admitted call is entered unless its key has an entry.
* `first` — the first admitted call with a key.
* `get?_kept` — **behind any calls a key has the entry of its first call.**
-/

namespace HarnessLabs.FirstWins

universe u v w

variable {K : Type u} {V : Type v} {C : Type w} [DecidableEq K]
  (admits : C → Bool) (key : C → K) (value : C → V)

def keep (d : Dict K V) (c : C) : Dict K V :=
  if admits c ∧ d.contains (key c) = false then d.set (key c) (value c) else d

def first (calls : List C) (k : K) : Option C := calls.find? fun c => admits c && key c == k

theorem first_cons (c : C) (calls : List C) (k : K) : first admits key (c :: calls) k =
    if admits c && key c == k then some c else first admits key calls k := by
  rw [first, List.find?_cons]
  cases admits c && key c == k <;> rfl

theorem get?_keep (d : Dict K V) (c : C) (k : K) :
    (keep admits key value d c).get? k =
      (d.get? k).or (if admits c && key c == k then some (value c) else none) := by
  rw [keep]
  by_cases hk : key c = k
  · subst hk
    cases hget : d.get? (key c) <;> by_cases hadmits : admits c <;>
      simp [Dict.contains, hget, hadmits]
  · split_ifs <;> simp_all [Ne.symm hk]

/-- **The first entry wins.** -/
theorem get?_kept (calls : List C) (k : K) :
    (calls.foldl (keep admits key value) ∅).get? k = (first admits key calls k).map value := by
  have hfold (d : Dict K V) : (calls.foldl (keep admits key value) d).get? k =
      (d.get? k).or ((first admits key calls k).map value) := by
    induction calls generalizing d with
    | nil => simp [first]
    | cons c calls ih =>
      rw [List.foldl_cons, ih, get?_keep, Option.or_assoc, first_cons]
      split_ifs <;> simp
  rw [hfold]
  rfl

variable {admits key} {calls : List C} {c : C} {k : K}

theorem first_spec (h : first admits key calls k = some c) :
    c ∈ calls ∧ admits c = true ∧ key c = k := by
  have hfound := List.find?_some h
  rw [Bool.and_eq_true, beq_iff_eq] at hfound
  exact ⟨List.mem_of_find?_eq_some h, hfound⟩

/-- Further calls do not change the first one. -/
theorem first_append (h : first admits key calls k = some c) (more : List C) :
    first admits key (calls ++ more) k = some c := by
  rw [first, List.find?_append, ← first, h]
  rfl

/-- The first call was made when its key had none. -/
theorem first_eq_some_iff : first admits key calls k = some c ↔
    ∃ before behind, calls = before ++ c :: behind ∧ admits c = true ∧ key c = k ∧
      first admits key before k = none := by
  rw [first, List.find?_eq_some_iff_append, Bool.and_eq_true, beq_iff_eq]
  constructor
  · rintro ⟨hc, before, behind, hsplit, hbefore⟩
    exact ⟨before, behind, hsplit, hc.1, hc.2, List.find?_eq_none.2 fun b hb => by
      simpa [imp_iff_not_or] using hbefore b hb⟩
  · rintro ⟨before, behind, hsplit, hadmits, hkey, hnone⟩
    exact ⟨⟨hadmits, hkey⟩, before, behind, hsplit, fun b hb => by
      simpa [imp_iff_not_or] using List.find?_eq_none.1 hnone b hb⟩

end HarnessLabs.FirstWins
