import Mathlib.Data.List.Basic

/-!
# Scripts of durable writes

A script works on a durable store. It reads the store, writes to it one write after the other, and
returns or raises in the end; a crash leaves the store behind some prefix of the writes. An observer
takes notes beside the store, write by write, that the script never sees.

* `Script` — a monad; each part runs on the store that the parts before it left.
* `Holds` — **behind every write an assertion holds, and behind the last one another one.** The
  rules follow the shape of the script, with `Holds.bind` and `Holds.forM` for its composition.
-/

namespace HarnessLabs.Durable

universe u w

/-- A store, and what a write makes of it. -/
class Store (S : Type u) (W : outParam (Type u)) where
  write : S → W → S

section Scripts

variable {S W ε α β : Type u} [Store S W]

def writeAll (s : S) (writes : List W) : S := writes.foldl Store.write s

@[simp] theorem writeAll_nil (s : S) : writeAll s ([] : List W) = s := rfl

@[simp] theorem writeAll_cons (s : S) (w : W) (rest : List W) :
    writeAll s (w :: rest) = writeAll (Store.write s w) rest := rfl

@[simp] theorem writeAll_append (s : S) (front back : List W) :
    writeAll s (front ++ back) = writeAll (writeAll s front) back := List.foldl_append

/-- What is written on a store, in order, and what is returned or raised. -/
def Script (S W ε α : Type u) : Type u := S → List W × Except ε α

namespace Script

protected def pure (a : α) : Script S W ε α := fun _ => ([], .ok a)

/-- The second part runs on the store that the first one left. -/
protected def bind (x : Script S W ε α) (f : α → Script S W ε β) : Script S W ε β := fun s =>
  match x s with
  | (writes, .error e) => (writes, .error e)
  | (writes, .ok a) =>
    let (more, result) := f a (writeAll s writes)
    (writes ++ more, result)

instance : Monad (Script S W ε) where
  pure := Script.pure
  bind := Script.bind

/-- The store as it is. -/
def read : Script S W ε S := fun s => ([], .ok s)

def put (w : W) : Script S W ε PUnit := fun _ => ([w], .ok ⟨⟩)

def lift (result : Except ε α) : Script S W ε α := fun _ => ([], result)

instance : MonadLift (Except ε) (Script S W ε) := ⟨lift⟩

/-! ## What a script writes -/

@[simp] theorem pure_run (a : α) (s : S) : (pure a : Script S W ε α) s = ([], .ok a) := rfl

omit [Store S W] in
@[simp] theorem read_run (s : S) : (read : Script S W ε S) s = ([], .ok s) := rfl

omit [Store S W] in
@[simp] theorem put_run (w : W) (s : S) : (put w : Script S W ε PUnit) s = ([w], .ok ⟨⟩) := rfl

omit [Store S W] in
@[simp] theorem lift_run (result : Except ε α) (s : S) :
    (lift result : Script S W ε α) s = ([], result) := rfl

theorem bind_ok {x : Script S W ε α} {s : S} {writes : List W} {a : α}
    (h : x s = (writes, .ok a)) (f : α → Script S W ε β) :
    (x >>= f) s = (writes ++ (f a (writeAll s writes)).1, (f a (writeAll s writes)).2) := by
  change Script.bind x f s = _
  rw [Script.bind, h]

theorem bind_error {x : Script S W ε α} {s : S} {writes : List W} {e : ε}
    (h : x s = (writes, .error e)) (f : α → Script S W ε β) :
    (x >>= f) s = (writes, .error e) := by
  change Script.bind x f s = _
  rw [Script.bind, h]

end Script

end Scripts

/-! ## Observed scripts -/

/-- A store, and what an observer has noted. -/
structure Watched (S : Type u) (G : Type w) where
  store : S
  notes : G

section Observed

variable {S W ε α β : Type u} {G : Type w} [Store S W]
variable {note : G → S → W → G}

namespace Watched

def write (note : G → S → W → G) (x : Watched S G) (w : W) : Watched S G :=
  ⟨Store.write x.store w, note x.notes x.store w⟩

def writeAll (note : G → S → W → G) (x : Watched S G) (writes : List W) : Watched S G :=
  writes.foldl (write note) x

@[simp] theorem writeAll_nil (x : Watched S G) : x.writeAll note [] = x := rfl

@[simp] theorem writeAll_cons (x : Watched S G) (w : W) (rest : List W) :
    x.writeAll note (w :: rest) = (x.write note w).writeAll note rest := rfl

@[simp] theorem writeAll_append (x : Watched S G) (front back : List W) :
    x.writeAll note (front ++ back) = (x.writeAll note front).writeAll note back :=
  List.foldl_append

/-- The observer leaves the store alone. -/
@[simp] theorem store_writeAll (x : Watched S G) (writes : List W) :
    (x.writeAll note writes).store = Durable.writeAll x.store writes := by
  induction writes generalizing x with
  | nil => rfl
  | cons w rest ih => exact ih (x.write note w)

end Watched

/-- Behind every write `I` holds, and behind the last one `Q` of what is returned. -/
structure Holds (note : G → S → W → G) (I : Watched S G → Prop) (x : Script S W ε α)
    (Q : α → Watched S G → Prop) (a : Watched S G) : Prop where
  always : ∀ n, I (a.writeAll note ((x a.store).1.take n))
  post : ∀ r, (x a.store).2 = .ok r → Q r (a.writeAll note (x a.store).1)

namespace Holds

variable {I : Watched S G → Prop} {a : Watched S G}

variable {Q : α → Watched S G → Prop} {x : Script S W ε α}

theorem pure {r : α} (hI : I a) (hQ : Q r a) :
    Holds note I (pure r : Script S W ε α) Q a where
  always n := by simpa using hI
  post r' h := by
    cases h
    exact hQ

theorem read {Q : S → Watched S G → Prop} (hI : I a) (hQ : Q a.store a) :
    Holds note I (Script.read : Script S W ε S) Q a where
  always n := by simpa using hI
  post r h := by
    cases h
    exact hQ

theorem lift {result : Except ε α} (hI : I a) (hQ : ∀ r, result = .ok r → Q r a) :
    Holds note I (Script.lift result : Script S W ε α) Q a where
  always n := by simpa using hI
  post r h := hQ r h

theorem put {w : W} {Q : PUnit → Watched S G → Prop} (hI : I a) (hnext : I (a.write note w))
    (hQ : Q ⟨⟩ (a.write note w)) : Holds note I (Script.put w : Script S W ε PUnit) Q a where
  always n := by
    cases n with
    | zero => exact hI
    | succ n => simpa using hnext
  post r _ := hQ

theorem mono {R : α → Watched S G → Prop} (h : Holds note I x Q a) (hQR : ∀ r b, Q r b → R r b) :
    Holds note I x R a where
  always := h.always
  post r hr := hQR r _ (h.post r hr)

/-- **The two parts of a script.** -/
theorem bind {f : α → Script S W ε β} {Q : β → Watched S G → Prop}
    (h : Holds note I x (fun r => Holds note I (f r) Q) a) : Holds note I (x >>= f) Q a := by
  cases hx : x a.store with
  | mk writes result =>
    have halways : ∀ n, I (a.writeAll note (writes.take n)) := by
      intro n
      have hn := h.always n
      rwa [hx] at hn
    cases result with
    | error e =>
      have hrun := Script.bind_error hx f
      refine ⟨fun n => ?_, fun r hr => ?_⟩
      · rw [hrun]
        exact halways n
      · rw [hrun] at hr
        cases hr
    | ok r =>
      have hrest : Holds note I (f r) Q (a.writeAll note writes) := by
        have hpost := h.post r
        rw [hx] at hpost
        exact hpost rfl
      have hrun := Script.bind_ok hx f
      rw [show Durable.writeAll a.store writes = (a.writeAll note writes).store from
        (Watched.store_writeAll a writes).symm] at hrun
      refine ⟨fun n => ?_, fun b hb => ?_⟩
      · rw [hrun, List.take_append, Watched.writeAll_append]
        obtain hn | hn := Nat.le_total n writes.length
        · rw [Nat.sub_eq_zero_of_le hn]
          exact halways n
        · rw [List.take_of_length_le hn]
          exact hrest.always (n - writes.length)
      · rw [hrun] at hb ⊢
        rw [Watched.writeAll_append]
        exact hrest.post b hb

/-- What holds of both parts holds of the first one, followed by the second. -/
theorem left {f : α → Script S W ε β} {Q : β → Watched S G → Prop} (h : Holds note I (x >>= f) Q a) :
    Holds note I x (fun r => Holds note I (f r) Q) a := by
  cases hx : x a.store with
  | mk writes result =>
    cases result with
    | error e =>
      have hrun := Script.bind_error hx f
      refine ⟨fun n => ?_, fun r hr => ?_⟩
      · have hn := h.always n
        rw [hx]
        rwa [hrun] at hn
      · rw [hx] at hr
        cases hr
    | ok r =>
      have hrun := Script.bind_ok hx f
      rw [show Durable.writeAll a.store writes = (a.writeAll note writes).store from
        (Watched.store_writeAll a writes).symm] at hrun
      refine ⟨fun n => ?_, fun r' hr => ?_⟩
      · rw [hx]
        obtain hn | hn := Nat.le_total n writes.length
        · have hpre := h.always n
          rwa [hrun, List.take_append_of_le_length hn] at hpre
        · have hpre := h.always writes.length
          rw [hrun, List.take_append_of_le_length (Nat.le_refl _), List.take_length] at hpre
          rwa [List.take_of_length_le hn]
      · rw [hx] at hr ⊢
        cases hr
        refine ⟨fun n => ?_, fun b hb => ?_⟩
        · have hsuffix := h.always (writes.length + n)
          rwa [hrun, List.take_length_add_append, Watched.writeAll_append] at hsuffix
        · have hpost := h.post b
          rw [hrun] at hpost
          rw [← Watched.writeAll_append]
          exact hpost hb

/-- A loop keeps what every round keeps. -/
theorem forM {items : List α} {body : α → Script S W ε PUnit} {J : Watched S G → Prop}
    (hI : ∀ b, J b → I b) (hbody : ∀ r ∈ items, ∀ b, J b → Holds note I (body r) (fun _ => J) b)
    (ha : J a) : Holds note I (items.forM body) (fun _ => J) a := by
  induction items generalizing a with
  | nil => exact pure (hI a ha) ha
  | cons r rest ih =>
    refine bind ((hbody r List.mem_cons_self a ha).mono fun _ b hb => ?_)
    exact ih (fun r hr => hbody r (List.mem_cons_of_mem _ hr)) hb

/-- A loop in two parts. -/
theorem forM_append {front back : List α} {body : α → Script S W ε PUnit}
    {Q : PUnit → Watched S G → Prop}
    (h : Holds note I (front.forM body) (fun _ => Holds note I (back.forM body) Q) a) :
    Holds note I ((front ++ back).forM body) Q a := by
  induction front generalizing a with
  | nil => exact h.post ⟨⟩ rfl
  | cons r rest ih =>
    have hfirst : Holds note I (body r) (fun _ b =>
        Holds note I (rest.forM body) (fun _ => Holds note I (back.forM body) Q) b) a := h.left
    exact bind (hfirst.mono fun _ b hb => ih hb)

/-- A loop with a value that it carries along. -/
theorem foldlM {items : List β} {body : α → β → Script S W ε α} {J : Watched S G → Prop}
    (hI : ∀ b, J b → I b)
    (hbody : ∀ r, ∀ item ∈ items, ∀ b, J b → Holds note I (body r item) (fun _ => J) b) {r : α}
    (ha : J a) : Holds note I (items.foldlM body r) (fun _ => J) a := by
  induction items generalizing a r with
  | nil => exact pure (hI a ha) ha
  | cons item rest ih =>
    refine bind ((hbody r item List.mem_cons_self a ha).mono fun next b hb => ?_)
    exact ih (fun r item hitem => hbody r item (List.mem_cons_of_mem _ hitem)) hb

/-- What holds behind every write holds behind a crash. -/
theorem cut (h : Holds note I x Q a) (n : ℕ) :
    I (a.writeAll note ((x a.store).1.take n)) := h.always n

end Holds

end Observed

end HarnessLabs.Durable
