import Mathlib.Tactic
import Mathlib.Data.Finset.Basic
import Mathlib.Data.Finset.Sum

/-!
# Insertion-ordered dictionaries

A dictionary is its list of items, each key once, in the order the keys were first set. Setting a
key that is present replaces its value in place, so iteration order is insertion order.

* `get?_set`, `keySet_set` — what an update does to a lookup and to the set of keys.
* `get?_eq_some_iff` — a lookup finds exactly the item that is listed.
-/

namespace HarnessLabs

open List Option

universe u v w

/-- A finite map with a fixed iteration order: every key is listed once. -/
structure Dict (K : Type u) (V : Type v) where
  items : List (K × V)
  nodup : (items.map Prod.fst).Nodup

namespace Dict

variable {K : Type u} {V : Type v} {W : Type w}

@[ext] theorem ext {a b : Dict K V} (h : a.items = b.items) : a = b := by
  cases a; cases b; cases h; rfl

instance [DecidableEq K] [DecidableEq V] : DecidableEq (Dict K V) := fun a b =>
  decidable_of_iff (a.items = b.items) ⟨Dict.ext, fun h => h ▸ rfl⟩

/-- The dictionary without items. -/
def empty : Dict K V := ⟨[], nodup_nil⟩

instance : EmptyCollection (Dict K V) := ⟨empty⟩

instance : Inhabited (Dict K V) := ⟨∅⟩

def keys (d : Dict K V) : List K := d.items.map Prod.fst

def values (d : Dict K V) : List V := d.items.map Prod.snd

@[simp] theorem keys_empty : (∅ : Dict K V).keys = [] := rfl

theorem nodup_keys (d : Dict K V) : d.keys.Nodup := d.nodup

/-- Change every value and keep the keys. -/
def mapValues (d : Dict K V) (f : K → V → W) : Dict K W where
  items := d.items.map fun p => (p.1, f p.1 p.2)
  nodup := by
    have h : (Prod.fst ∘ fun p : K × V => (p.1, f p.1 p.2)) = Prod.fst := rfl
    rw [List.map_map, h]
    exact d.nodup

variable [DecidableEq K]

/-! ## Lookup -/

/-- The first value listed under `k`. -/
def lookupItems (k : K) : List (K × V) → Option V
  | [] => none
  | (j, v) :: rest => if j = k then some v else lookupItems k rest

def get? (d : Dict K V) (k : K) : Option V := lookupItems k d.items

def getD (d : Dict K V) (k : K) (v : V) : V := (d.get? k).getD v

def contains (d : Dict K V) (k : K) : Bool := (d.get? k).isSome

@[simp] theorem get?_empty (k : K) : (∅ : Dict K V).get? k = none := rfl

variable {k : K} {l : List (K × V)} {v : V} {d e : Dict K V}

theorem lookupItems_eq_none :
    lookupItems k l = none ↔ k ∉ l.map Prod.fst := by
  induction l with
  | nil => simp [lookupItems]
  | cons p l ih =>
    obtain ⟨j, v⟩ := p
    by_cases h : j = k
    · simp [lookupItems, h]
    · simp [lookupItems, h, ih, Ne.symm h]

theorem lookupItems_eq_some (hl : (l.map Prod.fst).Nodup) :
    lookupItems k l = some v ↔ (k, v) ∈ l := by
  induction l with
  | nil => simp [lookupItems]
  | cons p l ih =>
    obtain ⟨j, w⟩ := p
    obtain ⟨hj, hl⟩ := nodup_cons.1 hl
    by_cases h : j = k
    · subst h
      have hk : (j, v) ∉ l := fun hm => hj (mem_map.2 ⟨_, hm, rfl⟩)
      simp [lookupItems, hk, eq_comm]
    · simp [lookupItems, h, ih hl, Ne.symm h]

theorem get?_eq_some_iff : d.get? k = some v ↔ (k, v) ∈ d.items :=
  lookupItems_eq_some d.nodup

theorem get?_eq_none_iff : d.get? k = none ↔ k ∉ d.keys :=
  lookupItems_eq_none

theorem mem_keys_iff : k ∈ d.keys ↔ ∃ v, d.get? k = some v := by
  rw [← ne_none_iff_exists', ne_eq, get?_eq_none_iff, not_not]

theorem mem_values_iff : v ∈ d.values ↔ ∃ k, d.get? k = some v := by
  simp [values, get?_eq_some_iff]

theorem contains_iff : d.contains k = true ↔ k ∈ d.keys := by
  rw [contains, isSome_iff_exists, mem_keys_iff]

/-- The keys as a set. -/
def keySet (d : Dict K V) : Finset K := d.keys.toFinset

@[simp] theorem mem_keySet : k ∈ d.keySet ↔ k ∈ d.keys :=
  mem_toFinset

theorem card_keySet (d : Dict K V) : d.keySet.card = d.items.length := by
  rw [keySet, toFinset_card_of_nodup d.nodup_keys, keys, length_map]

/-! ## Updates -/

/-- Set a key: in place when it is present, at the end otherwise. -/
def setItems (k : K) (v : V) : List (K × V) → List (K × V)
  | [] => [(k, v)]
  | (j, w) :: rest => if j = k then (k, v) :: rest else (j, w) :: setItems k v rest

theorem keys_setItems (k : K) (v : V) (l : List (K × V)) :
    (setItems k v l).map Prod.fst =
      if k ∈ l.map Prod.fst then l.map Prod.fst else l.map Prod.fst ++ [k] := by
  induction l with
  | nil => simp [setItems]
  | cons p l ih =>
    obtain ⟨j, w⟩ := p
    by_cases h : j = k
    · simp [setItems, h]
    · by_cases hk : k ∈ l.map Prod.fst
      · rw [if_pos hk] at ih
        simp only [setItems, if_neg h, map_cons, ih]
        rw [if_pos (mem_cons_of_mem _ hk)]
      · rw [if_neg hk] at ih
        simp only [setItems, if_neg h, map_cons, ih]
        rw [if_neg (by simp [Ne.symm h, hk]), cons_append]

def set (d : Dict K V) (k : K) (v : V) : Dict K V where
  items := setItems k v d.items
  nodup := by
    rw [keys_setItems]
    split_ifs with h
    · exact d.nodup
    · exact List.Nodup.append d.nodup (nodup_singleton k) (by simpa using h)

theorem lookupItems_setItems (k j : K) (v : V) (l : List (K × V)) :
    lookupItems j (setItems k v l) = if j = k then some v else lookupItems j l := by
  induction l with
  | nil =>
    by_cases h : j = k
    · simp [setItems, lookupItems, h]
    · simp [setItems, lookupItems, h, Ne.symm h]
  | cons p l ih =>
    obtain ⟨i, w⟩ := p
    by_cases hi : i = k
    · by_cases hj : j = k
      · simp [setItems, lookupItems, hi, hj]
      · simp [setItems, lookupItems, hi, hj, Ne.symm hj]
    · by_cases hij : i = j
      · subst hij
        simp [setItems, lookupItems, hi]
      · simp [setItems, lookupItems, hi, hij, ih]

/-- **An update changes one lookup.** -/
@[simp] theorem get?_set (d : Dict K V) (k j : K) (v : V) :
    (d.set k v).get? j = if j = k then some v else d.get? j :=
  lookupItems_setItems k j v d.items

theorem get?_set_self (d : Dict K V) (k : K) (v : V) : (d.set k v).get? k = some v := by simp

theorem get?_set_ne (d : Dict K V) {j : K} (v : V) (h : j ≠ k) :
    (d.set k v).get? j = d.get? j := by simp [h]

theorem mem_keys_set {j : K} :
    j ∈ (d.set k v).keys ↔ j = k ∨ j ∈ d.keys := by
  simp only [mem_keys_iff, get?_set]
  by_cases h : j = k <;> simp [h]

@[simp] theorem keySet_set (d : Dict K V) (k : K) (v : V) :
    (d.set k v).keySet = insert k d.keySet := by
  ext j; simp [mem_keys_set]

/-- Setting a key to the value it has changes nothing. -/
theorem set_get? (h : d.get? k = some v) : d.set k v = d := by
  have key : ∀ l : List (K × V), lookupItems k l = some v → setItems k v l = l := by
    intro l
    induction l with
    | nil => simp [lookupItems]
    | cons p l ih =>
      obtain ⟨j, w⟩ := p
      intro hl
      by_cases hj : j = k
      · simp only [lookupItems, if_pos hj, Option.some.injEq] at hl
        simp [setItems, hj, hl]
      · simp only [lookupItems, if_neg hj] at hl
        simp [setItems, hj, ih hl]
  exact ext (key d.items h)

theorem setItems_of_notMem (h : k ∉ l.map Prod.fst) (v : V) :
    setItems k v l = l ++ [(k, v)] := by
  induction l with
  | nil => rfl
  | cons p l ih =>
    simp only [map_cons, mem_cons, not_or] at h
    simp only [setItems, if_neg (Ne.symm h.1), ih h.2, cons_append]

/-- A new key goes to the end. -/
theorem values_set_of_notMem (h : k ∉ d.keys) (v : V) :
    (d.set k v).values = d.values ++ [v] := by
  have hset : (d.set k v).items = d.items ++ [(k, v)] := setItems_of_notMem h v
  rw [values, hset, map_append]
  rfl

theorem filter_setItems {p : K × V → Bool} (hp : p (k, v) = false) (hn : (l.map Prod.fst).Nodup)
    (hk : k ∈ l.map Prod.fst) :
    (setItems k v l).filter p = (l.filter p).filter fun q => q.1 ≠ k := by
  induction l with
  | nil => simp at hk
  | cons q l ih =>
    obtain ⟨j, w⟩ := q
    obtain ⟨hj, hn⟩ := nodup_cons.1 hn
    by_cases h : j = k
    · subst h
      have hrest : (l.filter p).filter (fun q => q.1 ≠ j) = l.filter p := by
        refine filter_eq_self.2 fun q hq => decide_eq_true fun he => ?_
        exact hj (mem_map.2 ⟨q, (mem_filter.1 hq).1, he⟩)
      rw [setItems, if_pos rfl, filter_cons_of_neg (by simp [hp])]
      cases hw : p (j, w) with
      | true =>
        rw [filter_cons_of_pos hw, filter_cons_of_neg (by simp), hrest]
      | false => rw [filter_cons_of_neg (by simp [hw]), hrest]
    · have hk : k ∈ l.map Prod.fst := by simpa [Ne.symm h] using hk
      rw [setItems, if_neg h]
      cases hw : p (j, w) with
      | true =>
        rw [filter_cons_of_pos hw, filter_cons_of_pos hw,
          filter_cons_of_pos (by simpa using h), ih hn hk]
      | false =>
        rw [filter_cons_of_neg (by simp [hw]), filter_cons_of_neg (by simp [hw]), ih hn hk]

/-- Set every item of `e`, in its order. -/
def update (d e : Dict K V) : Dict K V := e.items.foldl (fun acc p => acc.set p.1 p.2) d

theorem keySet_update (d e : Dict K V) : (d.update e).keySet = d.keySet ∪ e.keySet := by
  have key : ∀ (l : List (K × V)) (d : Dict K V),
      (l.foldl (fun acc p => acc.set p.1 p.2) d).keySet =
        d.keySet ∪ (l.map Prod.fst).toFinset := by
    intro l
    induction l with
    | nil => simp
    | cons p l ih =>
      intro d
      rw [foldl_cons, ih, keySet_set, map_cons, toFinset_cons, Finset.insert_union,
        Finset.union_insert]
  exact key e.items d

theorem items_set_of_notMem (h : k ∉ d.keys) (v : V) :
    (d.set k v).items = d.items ++ [(k, v)] := setItems_of_notMem h v

theorem update_set_of_notMem (d : Dict K V) (h : k ∉ e.keys) (v : V) :
    d.update (e.set k v) = (d.update e).set k v := by
  rw [update, items_set_of_notMem h, foldl_append]
  rfl

/-- An update with items that are there changes nothing. -/
theorem update_eq_self (h : ∀ p ∈ e.items, d.get? p.1 = some p.2) :
    d.update e = d := by
  have key : ∀ l : List (K × V), (∀ p ∈ l, d.get? p.1 = some p.2) →
      l.foldl (fun acc p => acc.set p.1 p.2) d = d := by
    intro l
    induction l with
    | nil => exact fun _ => rfl
    | cons p l ih =>
      intro hl
      obtain ⟨hp, hl⟩ := forall_mem_cons.1 hl
      rw [foldl_cons, set_get? hp, ih hl]
  exact key e.items h

/-- The items of `e` are found in the update. -/
theorem get?_update_of_mem (d : Dict K V) {p : K × V} (hp : p ∈ e.items) :
    (d.update e).get? p.1 = some p.2 := by
  have key : ∀ (l : List (K × V)) (d : Dict K V), (l.map Prod.fst).Nodup → ∀ p : K × V,
      (p ∈ l ∨ p.1 ∉ l.map Prod.fst ∧ d.get? p.1 = some p.2) →
      (l.foldl (fun acc p => acc.set p.1 p.2) d).get? p.1 = some p.2 := by
    intro l
    induction l with
    | nil => rintro d - p (hp | ⟨-, hp⟩) <;> [cases hp; exact hp]
    | cons q l ih =>
      intro d hn p hp
      obtain ⟨hq, hn⟩ := nodup_cons.1 hn
      refine ih _ hn p ?_
      rcases hp with hp | ⟨hp, hget⟩
      · rcases mem_cons.1 hp with rfl | hp
        · exact .inr ⟨hq, get?_set_self d _ _⟩
        · exact .inl hp
      · rw [map_cons, mem_cons, not_or] at hp
        exact .inr ⟨hp.2, by rw [get?_set_ne d _ hp.1, hget]⟩
  exact key e.items d e.nodup p (.inl hp)

theorem get?_update (d e : Dict K V) (k : K) : (d.update e).get? k = (e.get? k).or (d.get? k) := by
  have hrest : ∀ (l : List (K × V)) (d : Dict K V), k ∉ l.map Prod.fst →
      (l.foldl (fun acc p => acc.set p.1 p.2) d).get? k = d.get? k := by
    intro l
    induction l with
    | nil => exact fun _ _ => rfl
    | cons p l ih =>
      intro d hk
      rw [map_cons, mem_cons, not_or] at hk
      rw [foldl_cons, ih _ hk.2, get?_set_ne d _ hk.1]
  cases hget : e.get? k with
  | none => exact hrest e.items d (get?_eq_none_iff.1 hget)
  | some v => exact get?_update_of_mem d (p := (k, v)) (get?_eq_some_iff.1 hget)

/-- The same update twice is one. -/
theorem update_update_self (d e : Dict K V) : (d.update e).update e = d.update e :=
  update_eq_self fun _ hp => get?_update_of_mem d hp

/-- Remove a key. -/
def erase (d : Dict K V) (k : K) : Dict K V where
  items := d.items.filter fun p => p.1 ≠ k
  nodup := (List.Sublist.map Prod.fst filter_sublist).nodup d.nodup

@[simp] theorem get?_erase (d : Dict K V) (k j : K) :
    (d.erase k).get? j = if j = k then none else d.get? j := by
  have key : ∀ l : List (K × V), lookupItems j (l.filter fun p => p.1 ≠ k) =
      if j = k then none else lookupItems j l := by
    intro l
    induction l with
    | nil => simp [lookupItems]
    | cons p l ih =>
      obtain ⟨i, w⟩ := p
      by_cases hi : i = k
      · by_cases hj : j = k
        · simpa [hi, hj] using ih
        · simpa [hi, hj, lookupItems, Ne.symm hj] using ih
      · by_cases hij : i = j
        · subst hij
          simp [hi, lookupItems]
        · simpa [hi, lookupItems, hij] using ih
  exact key d.items

/-- Keep the keys that `f` has a value for. -/
def filterMap (d : Dict K V) (f : K → V → Option W) : Dict K W where
  items := d.items.filterMap fun p => (f p.1 p.2).map (p.1, ·)
  nodup := by
    have hsub : ((d.items.filterMap fun p => (f p.1 p.2).map (p.1, ·)).map Prod.fst).Sublist
        (d.items.map Prod.fst) := by
      induction d.items with
      | nil => exact List.Sublist.slnil
      | cons p l ih =>
        cases h : f p.1 p.2 with
        | none => simpa [h] using ih.cons p.1
        | some w => simpa [h] using ih.cons_cons p.1
    exact hsub.nodup d.nodup

@[simp] theorem get?_filterMap (d : Dict K V) (f : K → V → Option W) (k : K) :
    (d.filterMap f).get? k = (d.get? k).bind (f k) := by
  ext w
  rw [get?_eq_some_iff, bind_eq_some_iff]
  simp only [filterMap, mem_filterMap, map_eq_some_iff, Prod.mk.injEq]
  constructor
  · rintro ⟨⟨j, v⟩, hmem, w', hf, rfl, rfl⟩
    exact ⟨v, get?_eq_some_iff.2 hmem, hf⟩
  · rintro ⟨v, hget, hf⟩
    exact ⟨(k, v), get?_eq_some_iff.1 hget, w, hf, rfl, rfl⟩

@[simp] theorem get?_mapValues (d : Dict K V) (f : K → V → W) (k : K) :
    (d.mapValues f).get? k = (d.get? k).map (f k) := by
  ext w
  rw [get?_eq_some_iff, Option.map_eq_some_iff]
  simp only [mapValues, List.mem_map, Prod.mk.injEq]
  constructor
  · rintro ⟨⟨j, v⟩, hmem, rfl, rfl⟩
    exact ⟨v, get?_eq_some_iff.2 hmem, rfl⟩
  · rintro ⟨v, hget, rfl⟩
    exact ⟨(k, v), get?_eq_some_iff.1 hget, rfl, rfl⟩

/-! ## Everywhere -/

/-- `P` holds of every key with its value. -/
def All (P : K → V → Prop) (d : Dict K V) : Prop := ∀ k v, d.get? k = some v → P k v

theorem All.empty (P : K → V → Prop) : (∅ : Dict K V).All P := by
  intro k v h
  simp at h

theorem All.set {P : K → V → Prop} (h : d.All P) (hv : P k v) :
    (d.set k v).All P := by
  intro j w hw
  by_cases hj : j = k
  · subst hj
    rw [get?_set_self] at hw
    cases hw
    exact hv
  · rw [get?_set_ne d v hj] at hw
    exact h j w hw

theorem All.mapValues {P : K → V → Prop} {Q : K → W → Prop} (h : d.All P) {f : K → V → W}
    (hf : ∀ k v, P k v → Q k (f k v)) : (d.mapValues f).All Q := by
  intro k w hw
  rw [get?_mapValues, map_eq_some_iff] at hw
  obtain ⟨v, hv, rfl⟩ := hw
  exact hf k v (h k v hv)

/-- The dictionary that lists `l`; a key listed twice keeps its last value. -/
def ofList (l : List (K × V)) : Dict K V := l.foldl (fun acc p => acc.set p.1 p.2) ∅

/-- Without repeated keys the list itself. -/
theorem items_ofList (h : (l.map Prod.fst).Nodup) : (ofList l).items = l := by
  have key : ∀ (l : List (K × V)) (d : Dict K V), (d.keys ++ l.map Prod.fst).Nodup →
      (l.foldl (fun acc p => acc.set p.1 p.2) d).items = d.items ++ l := by
    intro l
    induction l with
    | nil => simp
    | cons p l ih =>
      intro d hd
      have hp : p.1 ∉ d.keys := fun hmem =>
        disjoint_of_nodup_append hd hmem mem_cons_self
      have hkeys : (d.set p.1 p.2).keys = d.keys ++ [p.1] := by
        rw [keys, items_set_of_notMem hp, map_append]
        rfl
      rw [foldl_cons, ih (d.set p.1 p.2) (by rw [hkeys, append_assoc]; exact hd),
        items_set_of_notMem hp, append_assoc]
      rfl
  exact key l ∅ h

theorem get?_ofList (h : (l.map Prod.fst).Nodup) :
    (ofList l).get? k = some v ↔ (k, v) ∈ l := by
  rw [get?_eq_some_iff, items_ofList h]

/-! ## Keys by their values -/

/-- The keys whose values have a property. -/
theorem mem_map_filter_items (d : Dict K V) {p : V → Bool} :
    k ∈ (d.items.filter fun x => p x.2).map Prod.fst ↔ ∃ v, d.get? k = some v ∧ p v := by
  constructor
  · intro h
    obtain ⟨⟨j, v⟩, hmem, rfl⟩ := mem_map.1 h
    obtain ⟨hitem, hp⟩ := mem_filter.1 hmem
    exact ⟨v, get?_eq_some_iff.2 hitem, hp⟩
  · intro h
    obtain ⟨v, hget, hp⟩ := h
    exact mem_map.2 ⟨(k, v), mem_filter.2 ⟨get?_eq_some_iff.1 hget, hp⟩, rfl⟩

omit [DecidableEq K] in
theorem nodup_map_filter_items (d : Dict K V) (p : V → Bool) :
    ((d.items.filter fun x => p x.2).map Prod.fst).Nodup :=
  d.nodup.sublist (filter_sublist.map Prod.fst)

/-- Values are counted by the keys that hold them. -/
theorem countP_values (d : Dict K V) (p : V → Bool) :
    d.values.countP p = (d.keySet.filter fun k => (d.get? k).any p = true).card := by
  have hset : (d.keySet.filter fun k => (d.get? k).any p = true) =
      ((d.items.filter fun x => p x.2).map Prod.fst).toFinset := by
    ext k
    rw [Finset.mem_filter, mem_keySet, mem_keys_iff, List.mem_toFinset, mem_map_filter_items]
    constructor
    · intro ⟨⟨v, hv⟩, hp⟩
      exact ⟨v, hv, by rwa [hv] at hp⟩
    · intro ⟨v, hv, hp⟩
      exact ⟨⟨v, hv⟩, by rwa [hv]⟩
  rw [hset, toFinset_card_of_nodup (d.nodup_map_filter_items p), length_map, values,
    countP_map, countP_eq_length_filter]
  rfl

/-- Dictionaries that hold the same count alike. -/
theorem countP_values_congr {p : V → Bool} (h : ∀ k, (d.get? k).any p = (e.get? k).any p) :
    d.values.countP p = e.values.countP p := by
  rw [countP_values, countP_values]
  congr 1
  ext k
  simp only [Finset.mem_filter, mem_keySet, mem_keys_iff]
  have hany (d : Dict K V) (hk : (d.get? k).any p = true) : ∃ v, d.get? k = some v := by
    cases hd : d.get? k with
    | none => simp [hd] at hk
    | some v => exact ⟨v, rfl⟩
  constructor
  · rintro ⟨-, hk⟩
    rw [h k] at hk
    exact ⟨hany e hk, hk⟩
  · rintro ⟨-, hk⟩
    rw [← h k] at hk
    exact ⟨hany d hk, hk⟩

end Dict

end HarnessLabs
