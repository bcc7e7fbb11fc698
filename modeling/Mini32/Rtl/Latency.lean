import Mini32.Rtl.CpuCore

/-!
# The core is insensitive to bus latency

`cpu_core` on its own, against any bus that answers each request after a delay of
its choice.  The answer to a request may depend on all requests so far; the delay
of the `k`-th request is `delay k`.  While `bus_ready` is low the response ports
may carry anything.

## What is compared

Two runs with the same answers and different delays do not agree cycle by cycle, so
`latency_insensitive` compares what has been observed: for every cycle of the one run there
is a cycle of the other with the same requests issued, the same retirements logged and the
same end.  `stalled_cycle` adds what happens in between, namely nothing but the fall of the
retirement pulse.

## How it is proved

`cycle_eq_delayStep` identifies a cycle with one of `Elastic.delayStep`, a run whose bus
answers at once is the common reference (`immediate`), and `latency_insensitive` reads the
elastic theorem off for the two delay assignments.
-/

namespace Mini32.Rtl

namespace Latency

/-- A bus for the core. -/
structure Environment where
  /-- The answer to the last request of a history. -/
  answer : List Request → Response
  /-- The response ports in a cycle without `bus_ready`. -/
  idle : List Request → ℕ → Response

/-- The core, the requests answered so far, and the wait states of the present one. -/
abbrev State := Elastic.Delayed CpuCore (List Request)

section Cycle

variable (env : Environment) (delay : ℕ → ℕ)

/-- `bus_ready`: the present request has waited its delay. -/
def busReady (x : State) : Bool :=
  x.client.busValid && !(x.waited < delay x.env.length : Bool)

/-- One clock cycle without reset. -/
def cycle (x : State) : State :=
  match x.client.request with
  | none => ⟨x.client.clock false false (env.idle x.env x.waited), x.env, 0⟩
  | some q =>
      if busReady delay x then
        ⟨x.client.clock false true (env.answer (x.env ++ [q])), x.env ++ [q], 0⟩
      else ⟨x.client.clock false false (env.idle x.env x.waited), x.env, x.waited + 1⟩

/-- The cycles after a reset edge, from any power-up state of the core. -/
def run (core : CpuCore) (t : ℕ) : State :=
  (cycle env delay)^[t] ⟨core.clock true false ⟨0, none⟩, [], 0⟩

/-- All requests issued: those answered, and the one outstanding. -/
def issued (x : State) : List Request := x.env ++ x.client.request.toList

/-- What a run shows up to time `t`: requests issued, instructions retired, and
whether and how the core has stopped. -/
structure Observation where
  issued : List Request
  retirements : List RetirePort
  halted : Bool
  faulted : Bool
  fault : FaultPort

/-- What has been seen of the core up to cycle `t`. -/
def observe (core : CpuCore) (t : ℕ) : Observation where
  issued := issued (run env delay core t)
  retirements := Clocked.log (·.client.retired) (run env delay core) (t + 1)
  halted := (run env delay core t).client.halted
  faulted := (run env delay core t).client.faulted
  fault := (run env delay core t).client.fault

/-- The bus as an elastic environment: it remembers the requests and does not see
retirements. -/
def Environment.toEnv : Elastic.Env (List Request) Request Response RetirePort where
  answer q history := (env.answer (history ++ [q]), history ++ [q])
  notify _ history := history

/-- The history of the elastic environment grows by the request that was answered. -/
theorem toEnv_after (e : Option RetirePort) (history : List Request) :
    env.toEnv.after e history = history := by
  cases e <;> rfl

/-- A cycle of the core under `delay` is a step of the elastic library. -/
theorem cycle_eq_delayStep (x : State) :
    cycle env delay x =
      Elastic.delayStep CpuCore.client env.toEnv (fun history => delay history.length) x := by
  simp only [cycle, Elastic.delayStep, toEnv_after]
  cases hv : x.client.busValid with
  | false =>
      have hreq : x.client.request = none := by simp [CpuCore.request, hv]
      have hclient : CpuCore.client.request x.client = none := hreq
      simp only [hreq, hclient]
      rw [CpuCore.clock_idle hv]
  | true =>
      obtain ⟨q, hreq⟩ : ∃ q, x.client.request = some q := by simp [CpuCore.request, hv]
      have hclient : CpuCore.client.request x.client = some q := hreq
      simp only [hreq, hclient, busReady, hv, Bool.true_and, CpuCore.clock_stall hv]
      by_cases hw : x.waited < delay x.env.length <;> simp only [hw] <;> rfl

/-- The run with immediate answers, which all delayed runs stutter. -/
def immediate (core : CpuCore) (j : ℕ) : Elastic.State CpuCore (List Request) :=
  (Elastic.step CpuCore.client env.toEnv)^[j] ⟨core.clock true false ⟨0, none⟩, []⟩

end Cycle

section Insensitive

variable (env : Environment)

/-- Under any delays the core stutters over its run with immediate answers. -/
theorem stutters (delay : ℕ → ℕ) :
    Clocked.Stutters (cycle env delay) (Elastic.step CpuCore.client env.toEnv)
      (·.client.retired) (·.client.retired) (Elastic.Lags CpuCore.client env.toEnv)
      (Elastic.remaining CpuCore.client env.toEnv fun history => delay history.length) := by
  have h := Elastic.stutters env.toEnv (fun history => delay history.length)
    CpuCore.client_lawful
  rwa [← funext (cycle_eq_delayStep env delay)] at h

/-- A delayed state shows what the immediate state shows. -/
theorem lags_shows {x : State} {u : Elastic.State CpuCore (List Request)}
    (h : Elastic.Lags CpuCore.client env.toEnv x u) :
    issued x = u.env ++ u.client.request.toList ∧ x.client.halted = u.client.halted ∧
      x.client.faulted = u.client.faulted ∧ x.client.fault = u.client.fault := by
  cases h with
  | synced s b => exact ⟨rfl, rfl, rfl, rfl⟩
  | waiting s b w hsome =>
      refine ⟨?_, rfl, rfl, rfl⟩
      rw [toEnv_after]
      rfl

/-- **Any two delay assignments show the same**: for every time of one run there is
a time of the other with the same requests, retirements and status. -/
theorem observe_eq (delay₁ delay₂ : ℕ → ℕ) (core : CpuCore) (t₁ : ℕ) :
    ∃ t₂, observe env delay₁ core t₁ = observe env delay₂ core t₂ := by
  have hstart : Elastic.Lags CpuCore.client env.toEnv
      ⟨core.clock true false ⟨0, none⟩, [], 0⟩ ⟨core.clock true false ⟨0, none⟩, []⟩ :=
    Elastic.Lags.synced _ _
  obtain ⟨j, hj, hlog⟩ := (stutters env delay₁).log_of_concrete hstart rfl t₁
  obtain ⟨t₂, ht, hlog'⟩ := (stutters env delay₂).log_of_abstract hstart rfl j
  obtain ⟨hissued, hhalted, hfaulted, hfault⟩ := lags_shows env hj
  obtain ⟨hissued', hhalted', hfaulted', hfault'⟩ := lags_shows env ht
  refine ⟨t₂, ?_⟩
  simp only [observe, Observation.mk.injEq]
  exact ⟨hissued.trans hissued'.symm, hlog.trans hlog'.symm, hhalted.trans hhalted'.symm,
    hfaulted.trans hfaulted'.symm, hfault.trans hfault'.symm⟩

/-- While a request waits, its signals hold and nothing retires. -/
theorem stalled_cycle (delay : ℕ → ℕ) {x : State} (hvalid : x.client.busValid = true)
    (hready : busReady delay x = false) :
    (cycle env delay x).client = x.client.clearPulses := by
  obtain ⟨q, hreq⟩ : ∃ q, x.client.request = some q := by simp [CpuCore.request, hvalid]
  simp only [cycle, hreq, hready, Bool.false_eq_true, if_false, CpuCore.clock_stall hvalid]

/-- **`cpu_core` is insensitive to bus latency.**  For every bus and every two delay
assignments, from reset: the `k`-th request is the same, the `n`-th retirement
record is the same, and every status of one run, with the requests and
retirements that led to it, is one of the other.  In each run a waiting request
holds its signals and no instruction retires while it waits. -/
theorem latency_insensitive (delay₁ delay₂ : ℕ → ℕ) (core : CpuCore) :
    (∀ (k : ℕ) (q : Request), (∃ t, (observe env delay₁ core t).issued[k]? = some q) ↔
      ∃ t, (observe env delay₂ core t).issued[k]? = some q) ∧
    (∀ (n : ℕ) (r : RetirePort), (∃ t, (observe env delay₁ core t).retirements[n]? = some r) ↔
      ∃ t, (observe env delay₂ core t).retirements[n]? = some r) ∧
    (∀ t₁, ∃ t₂, observe env delay₁ core t₁ = observe env delay₂ core t₂) ∧
    (∀ t₂, ∃ t₁, observe env delay₁ core t₁ = observe env delay₂ core t₂) ∧
    ∀ delay t, let c := (run env delay core t).client
      let c' := (run env delay core (t + 1)).client
      c.busValid = true → busReady delay (run env delay core t) = false →
        c'.busValid = true ∧ c'.busAccess = c.busAccess ∧ c'.busAddr = c.busAddr ∧
          c'.busWdata = c.busWdata ∧ c'.retire.valid = false := by
  have hforth := observe_eq env delay₁ delay₂ core
  have hback := observe_eq env delay₂ delay₁ core
  refine ⟨fun k q => ⟨?_, ?_⟩, fun n r => ⟨?_, ?_⟩, hforth, ?_, ?_⟩
  · rintro ⟨t, ht⟩
    obtain ⟨t₂, h⟩ := hforth t
    exact ⟨t₂, h ▸ ht⟩
  · rintro ⟨t, ht⟩
    obtain ⟨t₁, h⟩ := hback t
    exact ⟨t₁, h ▸ ht⟩
  · rintro ⟨t, ht⟩
    obtain ⟨t₂, h⟩ := hforth t
    exact ⟨t₂, h ▸ ht⟩
  · rintro ⟨t, ht⟩
    obtain ⟨t₁, h⟩ := hback t
    exact ⟨t₁, h ▸ ht⟩
  · intro t₂
    obtain ⟨t₁, h⟩ := hback t₂
    exact ⟨t₁, h.symm⟩
  · intro delay t c c' hvalid hready
    have hc' : c' = c.clearPulses := by
      change (run env delay core (t + 1)).client = _
      rw [run, Function.iterate_succ_apply']
      exact stalled_cycle env delay hvalid hready
    rw [hc']
    exact ⟨hvalid, rfl, rfl, rfl, rfl⟩

end Insensitive

end Latency
end Mini32.Rtl
