import Mathlib.Data.Nat.Notation

/-!
# Computations that can fail

Lemmas on `Except` for programs that stop at the first error.

`Within x y` says that a result of `x` is also the result of `y`; about a failing `x` it
says nothing.  The relation is closed under `bind` and `mapM`, so that two programs
that differ only in their error messages are compared part by part.

`Raises p x` says that an error of `x` is in `p`.  `failure kind x` is the kind of the
error that `x` ends in; the first failing part of a computation decides it
(`failure_bind`, `failure_mapM`).

The three are for three questions.  `Within` is for equal results of different programs,
where the errors are not comparable; `Raises` is for what the errors of one program look
like, whenever it fails; `failure` is for whether it fails and how, where the message
does not matter.  A program is gone through once for each question, with one lemma for
every function, and the lemmas compose because `bind` does.
-/

namespace Fallible

variable {ε ε' α β γ κ : Type}

/-- A result of two parts is a result of both. -/
theorem bind_eq_ok {x : Except ε α} {f : α → Except ε β} {b : β} :
    (x >>= f) = .ok b ↔ ∃ a, x = .ok a ∧ f a = .ok b := by
  cases x <;> simp [bind, Except.bind]

/-- A list goes through if its head and its tail do. -/
theorem mapM_cons_eq_ok {f : α → Except ε β} {a : α} {l : List α} {bs : List β} :
    (a :: l).mapM f = .ok bs ↔ ∃ b bs', f a = .ok b ∧ l.mapM f = .ok bs' ∧ bs = b :: bs' := by
  rw [List.mapM_cons]
  constructor
  · intro h
    obtain ⟨b, hb, h⟩ := bind_eq_ok.mp h
    obtain ⟨bs', hbs, h⟩ := bind_eq_ok.mp h
    exact ⟨b, bs', hb, hbs, (Except.ok.inj h).symm⟩
  · rintro ⟨b, bs', hb, hbs, rfl⟩
    rw [hb, hbs]
    rfl

/-! ## Equal results -/

/-- Whatever `x` returns, `y` returns. -/
def Within (x : Except ε α) (y : Except ε' α) : Prop := ∀ a, x = .ok a → y = .ok a

namespace Within

/-- A value is within itself, … -/
theorem pure (a : α) : Within (.ok a : Except ε α) (.ok a : Except ε' α) := by
  intro b h
  cases h
  rfl

/-- … and a failure within anything. -/
theorem error (e : ε) (y : Except ε' α) : Within (.error e) y := nofun

theorem bind {x : Except ε α} {y : Except ε' α} {f : α → Except ε β} {g : α → Except ε' β}
    (h : Within x y) (hf : ∀ a, Within (f a) (g a)) : Within (x >>= f) (y >>= g) := by
  intro b hb
  cases hx : x with
  | error e =>
      rw [hx] at hb
      nomatch hb
  | ok a =>
      rw [hx] at hb
      rw [h a hx]
      exact hf a b hb

/-- Part by part along a list. -/
theorem mapM {f : α → Except ε γ} {g : β → Except ε' γ} {h : α → β} {l : List α}
    (hf : ∀ a ∈ l, Within (f a) (g (h a))) : Within (l.mapM f) ((l.map h).mapM g) := by
  induction l with
  | nil => exact pure []
  | cons a l ih =>
      rw [List.map_cons, List.mapM_cons, List.mapM_cons]
      refine bind (hf a List.mem_cons_self) fun b => ?_
      refine bind (ih fun c hc => hf c (List.mem_cons_of_mem _ hc)) fun bs => ?_
      exact pure (b :: bs)

end Within

/-- Every result of a list comes from one of its elements. -/
theorem mem_of_mapM {f : α → Except ε β} {l : List α} {bs : List β} (h : l.mapM f = .ok bs)
    {b : β} (hb : b ∈ bs) : ∃ a ∈ l, f a = .ok b := by
  induction l generalizing bs with
  | nil =>
      cases h
      nomatch hb
  | cons first l ih =>
      obtain ⟨c, bs', hc, hl, rfl⟩ := mapM_cons_eq_ok.mp h
      rcases List.mem_cons.mp hb with rfl | hb
      · exact ⟨first, List.mem_cons_self, hc⟩
      · obtain ⟨a, ha, hfa⟩ := ih hl hb
        exact ⟨a, List.mem_cons_of_mem _ ha, hfa⟩

/-- As many results as arguments. -/
theorem length_of_mapM {f : α → Except ε β} {l : List α} {bs : List β} (h : l.mapM f = .ok bs) :
    bs.length = l.length := by
  induction l generalizing bs with
  | nil =>
      cases h
      rfl
  | cons first l ih =>
      obtain ⟨b, bs', -, hl, rfl⟩ := mapM_cons_eq_ok.mp h
      rw [List.length_cons, List.length_cons, ih hl]

/-- Element by element. -/
theorem getElem?_of_mapM {f : α → Except ε β} {l : List α} {bs : List β} (h : l.mapM f = .ok bs)
    {i : ℕ} {a : α} (hi : l[i]? = some a) : ∃ b, bs[i]? = some b ∧ f a = .ok b := by
  induction l generalizing bs i with
  | nil => nomatch hi
  | cons first l ih =>
      obtain ⟨b, bs', hb, hl, rfl⟩ := mapM_cons_eq_ok.mp h
      cases i with
      | zero =>
          obtain rfl := Option.some.inj hi
          exact ⟨b, rfl, hb⟩
      | succ i => exact ih hl hi

/-- Two lists that both go through go through together. -/
theorem mapM_append {f : α → Except ε β} {l l' : List α} {bs bs' : List β}
    (h : l.mapM f = .ok bs) (h' : l'.mapM f = .ok bs') : (l ++ l').mapM f = .ok (bs ++ bs') := by
  rw [List.mapM_append, h, h']
  rfl

/-- A list of which every element goes through, goes through. -/
theorem exists_mapM {f : α → Option β} {l : List α} (h : ∀ a ∈ l, ∃ b, f a = some b) :
    ∃ bs, l.mapM f = some bs ∧ bs.length = l.length ∧
      ∀ (i : ℕ) a, l[i]? = some a → ∃ b, bs[i]? = some b ∧ f a = some b := by
  induction l with
  | nil => exact ⟨[], rfl, rfl, fun i a hi => by simp at hi⟩
  | cons first l ih =>
      obtain ⟨b, hb⟩ := h first List.mem_cons_self
      obtain ⟨bs, hbs, hlength, helements⟩ := ih fun a ha => h a (List.mem_cons_of_mem _ ha)
      refine ⟨b :: bs, ?_, congrArg (· + 1) hlength, fun i a hi => ?_⟩
      · rw [List.mapM_cons, hb, hbs]
        rfl
      · cases i with
        | zero =>
            obtain rfl := Option.some.inj hi
            exact ⟨b, rfl, hb⟩
        | succ i => exact helements i a hi

/-! ## Errors of one sort -/

/-- Every error of `x` is in `p`. -/
def Raises (p : ε → Prop) (x : Except ε α) : Prop := ∀ e, x = .error e → p e

namespace Raises

variable {p : ε → Prop}

theorem ok (a : α) : Raises p (.ok a : Except ε α) := nofun

theorem error {e : ε} (h : p e) : Raises p (.error e : Except ε α) := by
  rintro _ ⟨⟩
  exact h

theorem mono {q : ε → Prop} {x : Except ε α} (h : Raises p x) (hpq : ∀ e, p e → q e) :
    Raises q x := fun e he => hpq e (h e he)

/-- What follows a computation may rely on its result. -/
theorem bind_of_ok {x : Except ε α} {f : α → Except ε β} (h : Raises p x)
    (hf : ∀ a, x = .ok a → Raises p (f a)) : Raises p (x >>= f) := by
  cases x with
  | ok a => exact hf a rfl
  | error e => exact error (h e rfl)

theorem bind {x : Except ε α} {f : α → Except ε β} (h : Raises p x)
    (hf : ∀ a, Raises p (f a)) : Raises p (x >>= f) :=
  h.bind_of_ok fun a _ => hf a

end Raises

/-! ## Kinds of failure -/

section Failure

variable (kind : ε → κ)

/-- The kind of the error, if there is one. -/
def failure : Except ε α → Option κ
  | .ok _ => none
  | .error e => some (kind e)

/-- A kind of failure is the kind of some error. -/
theorem failure_eq_some_iff {x : Except ε α} {k : κ} :
    failure kind x = some k ↔ ∃ e, x = .error e ∧ kind e = k := by
  cases x <;> simp [failure]

/-- What comes first fails first. -/
theorem failure_bind {x : Except ε α} {f : α → Except ε β} {fault : Option κ}
    (h : ∀ a, x = .ok a → failure kind (f a) = fault) :
    failure kind (x >>= f) = (failure kind x).or fault := by
  cases x with
  | ok a => exact h a rfl
  | error e => rfl

/-- What cannot fail does not matter. -/
theorem failure_bind_of_none {x : Except ε α} {f : α → Except ε β}
    (h : ∀ a, failure kind (f a) = none) : failure kind (x >>= f) = failure kind x := by
  rw [failure_bind kind fun a _ => h a, Option.or_none]

/-- A list of computations fails as the first one that does. -/
theorem failure_mapM (f : α → Except ε β) (l : List α) :
    failure kind (l.mapM f) = l.findSome? fun a => failure kind (f a) := by
  induction l with
  | nil => rfl
  | cons a l ih =>
      rw [List.mapM_cons, List.findSome?_cons, ← ih]
      cases f a with
      | error e => rfl
      | ok b =>
          cases l.mapM f with
          | error e => rfl
          | ok bs => rfl

end Failure

end Fallible
