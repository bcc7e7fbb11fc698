import Mini32.Lib.Run

/-!
# Clients that do not depend on latency

A `Client` is a clocked machine that now and then waits for the answer to a
request.  It is `Lawful` when waiting leaves its request, and what it will do with
the answer, as they were, and emits no events.

An `Env` answers requests out of a state of its own, and is told the client's
events.  `step` runs the two with every answer given in the cycle of its request;
`delayStep` holds each answer back for a number of cycles that the environment
chooses.  `stutters` is the theorem: for a lawful client every delayed run is a
stuttering of the immediate one, so that delays cannot be observed in requests,
events or results.

## The shape of the argument

A delayed state lags behind an immediate one (`Lags`): either the two are the same, or the
client has gone on waiting for some cycles since.  While it waits, `Lawful` says that the
request has not changed and that the answer, when it comes, will have the effect that it
would have had at once.  An edge of the delayed machine either is one more cycle of
waiting, which lowers the number of cycles `remaining`, or gives the answer, and then it
is the edge of the immediate machine.  That is a stuttering simulation in the sense of
`Lib.Run`, from which the equality of the event logs follows in both directions.

The environment is told an event before it answers the next request, so its state may
depend on everything that has happened, and so may the delays.
-/

namespace Elastic

variable {σ B Q R E : Type*}

/-- A machine that waits for answers: its request and event in each state, and
its edges without a request, without an answer, and with one. -/
structure Client (σ Q R E : Type*) where
  request : σ → Option Q
  emit : σ → Option E
  idle : σ → σ
  stall : σ → σ
  accept : R → σ → σ

/-- Waiting changes nothing but silences the events. -/
structure Client.Lawful (K : Client σ Q R E) : Prop where
  request_stall : ∀ s, K.request (K.stall s) = K.request s
  accept_stall : ∀ r s, K.accept r (K.stall s) = K.accept r s
  stall_stall : ∀ s, K.stall (K.stall s) = K.stall s
  emit_stall : ∀ s, K.emit (K.stall s) = none

/-- What answers the requests. -/
structure Env (B Q R E : Type*) where
  answer : Q → B → R × B
  notify : E → B → B

/-- The environment once it has been told of the event of a state. -/
def Env.after (V : Env B Q R E) (event : Option E) (b : B) : B :=
  match event with
  | some e => V.notify e b
  | none => b

/-- Nothing told, nothing changed. -/
@[simp] theorem Env.after_none (V : Env B Q R E) (b : B) : V.after none b = b := rfl

/-- Client and environment together. -/
structure State (σ B : Type*) where
  client : σ
  env : B

/-- The same, with the cycles the present request has waited. -/
structure Delayed (σ B : Type*) where
  client : σ
  env : B
  waited : ℕ

section Machines

variable (K : Client σ Q R E) (V : Env B Q R E) (delay : B → ℕ)

/-- One cycle with immediate answers. -/
def step (x : State σ B) : State σ B :=
  let b := V.after (K.emit x.client) x.env
  match K.request x.client with
  | none => ⟨K.idle x.client, b⟩
  | some q => ⟨K.accept (V.answer q b).1 x.client, (V.answer q b).2⟩

/-- One cycle in which the answer to the present request is due only after `delay`
cycles. -/
def delayStep (x : Delayed σ B) : Delayed σ B :=
  let b := V.after (K.emit x.client) x.env
  match K.request x.client with
  | none => ⟨K.idle x.client, b, 0⟩
  | some q =>
      if x.waited < delay b then ⟨K.stall x.client, b, x.waited + 1⟩
      else ⟨K.accept (V.answer q b).1 x.client, (V.answer q b).2, 0⟩

/-- A delayed state lags behind an immediate one: it is the same, or it waits for
the answer the other is about to get. -/
inductive Lags : Delayed σ B → State σ B → Prop
  | synced (s : σ) (b : B) : Lags ⟨s, b, 0⟩ ⟨s, b⟩
  | waiting (s : σ) (b : B) (w : ℕ) (h : (K.request s).isSome) :
      Lags ⟨K.stall s, V.after (K.emit s) b, w⟩ ⟨s, b⟩

/-- The cycles left to wait. -/
def remaining (x : Delayed σ B) : ℕ := delay (V.after (K.emit x.client) x.env) - x.waited

variable {K V delay}

/-- The two machines always present the same request. -/
theorem Lags.request_eq (hK : K.Lawful) {x : Delayed σ B} {u : State σ B} (h : Lags K V x u) :
    K.request x.client = K.request u.client := by
  cases h with
  | synced s b => rfl
  | waiting s b w h => exact hK.request_stall s

/-- An accepting edge from a lagging state goes where the immediate step goes. -/
theorem Lags.accept_eq (hK : K.Lawful) {x : Delayed σ B} {u : State σ B} (h : Lags K V x u)
    (r : R) : K.accept r x.client = K.accept r u.client := by
  cases h with
  | synced s b => rfl
  | waiting s b w h => exact hK.accept_stall r s

/-- Both environments have been told the same. -/
theorem Lags.after_eq (hK : K.Lawful) {x : Delayed σ B} {u : State σ B} (h : Lags K V x u) :
    V.after (K.emit x.client) x.env = V.after (K.emit u.client) u.env := by
  cases h with
  | synced s b => rfl
  | waiting s b w h => rw [hK.emit_stall, Env.after_none]

/-- **A lawful client is insensitive to latency**: whatever the delays, the run is
a stuttering of the run with immediate answers. -/
theorem stutters (V : Env B Q R E) (delay : B → ℕ) (hK : K.Lawful) :
    Clocked.Stutters (delayStep K V delay) (step K V) (fun x => K.emit x.client)
      (fun u => K.emit u.client) (Lags K V) (remaining K V delay) where
  step x u h := by
    have hreq := h.request_eq hK
    have henv := h.after_eq hK
    cases hq : K.request u.client with
    | none =>
        rw [hq] at hreq
        cases h with
        | waiting s b w hsome => simp [hq] at hsome
        | synced s b =>
            refine Or.inr ⟨?_, ?_⟩ <;> simp only [delayStep, step, hq]
            exact Lags.synced _ _
    | some q =>
        rw [hq] at hreq
        by_cases hw : x.waited < delay (V.after (K.emit x.client) x.env)
        · have hnext : delayStep K V delay x =
              ⟨K.stall x.client, V.after (K.emit x.client) x.env, x.waited + 1⟩ := by
            simp only [delayStep, hreq, if_pos hw]
          rw [hnext]
          refine Or.inl ⟨?_, hK.emit_stall _, ?_⟩
          · cases h with
            | synced s b => exact Lags.waiting s b _ (by rw [hq]; rfl)
            | waiting s b w hsome =>
                rw [henv]
                dsimp only
                rw [hK.stall_stall]
                exact Lags.waiting s b _ hsome
          · simp only [remaining, hK.emit_stall, Env.after_none]
            omega
        · have hnext : delayStep K V delay x = ⟨(step K V u).client, (step K V u).env, 0⟩ := by
            simp only [delayStep, hreq, if_neg hw]
            simp only [step, hq, henv, h.accept_eq hK]
          rw [hnext]
          exact Or.inr ⟨Lags.synced _ _, rfl⟩

end Machines

end Elastic
