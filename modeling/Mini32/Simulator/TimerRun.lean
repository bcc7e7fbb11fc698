import Mini32.Isa.History
import Mini32.Simulator.Step
import Mathlib.Algebra.Order.Interval.Finset.SuccPred
import Mathlib.Data.Nat.SuccPred
import Mathlib.Order.Interval.Finset.Nat

/-!
# The Timer over a run

The Timer counts retirements while it is enabled.  Retirement happens in `retire_to` and in
`Writeback`; whichever path an instruction takes, the bus ticks once, after the
instruction's own store.  `retire_timer` says this of one retirement.

`ofLog` is the Timer as a function of the log of retirements, which has for each the
address and value it stored, or `none`.  It looks only at the last store to each
register, and counts the retirements since the last store to COUNTER that found the
Timer enabled.  `timer_counts` says that after any number of steps from reset the Timer
holds exactly that, and that loads observe it.

The store that sets COUNTER ticks as well, if the Timer is enabled by then, so the count starts
with the retirement of that store (`counterOrigin`).  A store to CONTROL counts from its own
retirement on, in either direction.  `ofLog_concat` is the step: one more entry of the log is
one store and one tick of the Timer.
-/

namespace Mini32.Cpp

/-! ## The Timer of a log -/

namespace Timer

/-- Bit 0 of the last value the first `k` retired instructions stored to CONTROL. -/
def enabledAt (log : StoreLog) (k : ℕ) : Bool :=
  ((WriteLog.lastValue 0x20000108 (log.take k)).map (·.getLsbD 0)).getD false

/-- The number and the value of the last retired store to COUNTER. -/
def counterOrigin (log : StoreLog) : ℕ × Word := (WriteLog.last 0x20000100 log).getD (1, 0)

/-- How many of the retirements since that store, itself included, found the Timer enabled. -/
def ticks (log : StoreLog) : ℕ :=
  ((Finset.Icc (counterOrigin log).1 log.length).filter fun k => enabledAt log k).card

/-- The Timer that a log of retired stores leaves. -/
def ofLog (log : StoreLog) : Timer where
  counter := (counterOrigin log).2 + BitVec.ofNat 32 (ticks log)
  compare := (WriteLog.lastValue 0x20000104 log).getD 0
  enabled := enabledAt log log.length

/-- What one retired instruction's store does to the registers. -/
def stored (timer : Timer) : Option (Word × Word) → Timer
  | none => timer
  | some (address, value) =>
      { counter := if address = 0x20000100 then value else timer.counter
        compare := if address = 0x20000104 then value else timer.compare
        enabled := if address = 0x20000108 then value.getLsbD 0 else timer.enabled }

section Concat

variable (log : StoreLog) (entry : Option (Word × Word))

/-- A longer log agrees on the retirements it has in common. -/
theorem enabledAt_concat_of_le {k : ℕ} (h : k ≤ log.length) :
    enabledAt (log ++ [entry]) k = enabledAt log k := by
  rw [enabledAt, List.take_append_of_le_length h, enabledAt]

/-- The last retirement finds the Timer as its own store left it. -/
theorem enabledAt_concat_length :
    enabledAt (log ++ [entry]) (log.length + 1) = ((ofLog log).stored entry).enabled := by
  have htake : (log ++ [entry]).take (log.length + 1) = log ++ [entry] :=
    List.take_of_length_le (by simp)
  rcases entry with - | ⟨address, value⟩
  · rw [enabledAt, htake, WriteLog.lastValue_concat_none]
    simp only [stored, ofLog, enabledAt, List.take_length]
  · rw [enabledAt, htake, WriteLog.lastValue_concat_some]
    simp only [stored, ofLog, enabledAt, List.take_length]
    split_ifs <;> rfl

/-- The origin is at most one past the log. -/
theorem counterOrigin_le : (counterOrigin log).1 ≤ log.length + 1 := by
  unfold counterOrigin
  cases h : WriteLog.last 0x20000100 log with
  | none => exact Nat.le_add_left 1 _
  | some origin => exact Nat.le_succ_of_le (WriteLog.last_le h)

/-- A retirement that does not store to COUNTER adds one to the count, if it finds the
Timer enabled. -/
theorem ticks_concat (h : counterOrigin (log ++ [entry]) = counterOrigin log) :
    ticks (log ++ [entry]) =
      ticks log + if ((ofLog log).stored entry).enabled then 1 else 0 := by
  have hearlier : ((Finset.Icc (counterOrigin log).1 log.length).filter
      fun k => enabledAt (log ++ [entry]) k) =
        (Finset.Icc (counterOrigin log).1 log.length).filter fun k => enabledAt log k := by
    apply Finset.filter_congr
    intro k hk
    rw [enabledAt_concat_of_le log entry (Finset.mem_Icc.mp hk).2]
  have hnew : log.length + 1 ∉ (Finset.Icc (counterOrigin log).1 log.length).filter
      fun k => enabledAt log k := by
    simp
  rw [ticks, h, List.length_append, List.length_singleton,
    ← Finset.insert_Icc_right_eq_Icc_add_one (counterOrigin_le log), Finset.filter_insert,
    enabledAt_concat_length, hearlier]
  split
  · rw [Finset.card_insert_of_notMem hnew]
    rfl
  · rfl

/-- A store to COUNTER starts the count again, with its own retirement. -/
theorem ticks_concat_counter (value : Word) :
    ticks (log ++ [some (0x20000100, value)]) =
      if ((ofLog log).stored (some (0x20000100, value))).enabled then 1 else 0 := by
  rw [ticks, counterOrigin, WriteLog.last_concat_some, if_pos rfl, Option.getD_some,
    List.length_append, List.length_singleton, Finset.Icc_self, Finset.filter_singleton,
    enabledAt_concat_length]
  split <;> rfl

/-- The counter of a longer log. -/
theorem counter_concat : (ofLog (log ++ [entry])).counter =
    ((ofLog log).stored entry).counter + if ((ofLog log).stored entry).enabled then 1 else 0 := by
  have hkeep (h : counterOrigin (log ++ [entry]) = counterOrigin log) :
      (ofLog (log ++ [entry])).counter =
        (ofLog log).counter + if ((ofLog log).stored entry).enabled then 1 else 0 := by
    rw [ofLog, h, ticks_concat log entry h, BitVec.ofNat_add, ← BitVec.add_assoc]
    split <;> rfl
  rcases entry with - | ⟨address, value⟩
  · rw [hkeep (by rw [counterOrigin, WriteLog.last_concat_none, counterOrigin])]
    rfl
  · by_cases haddress : address = 0x20000100
    · subst haddress
      have hvalue : ((ofLog log).stored (some (0x20000100, value))).counter = value := by
        simp only [stored, if_true]
      rw [ofLog, ticks_concat_counter, counterOrigin, WriteLog.last_concat_some, if_pos rfl,
        hvalue, Option.getD_some]
      split <;> rfl
    · rw [hkeep (by
        rw [counterOrigin, WriteLog.last_concat_some, if_neg haddress, counterOrigin])]
      simp only [stored, if_neg haddress]

/-- **One more retirement**: its store, then a tick. -/
theorem ofLog_concat :
    ofLog (log ++ [entry]) = ((ofLog log).stored entry).retireTick := by
  have henabled : (ofLog (log ++ [entry])).enabled = ((ofLog log).stored entry).enabled := by
    rw [← enabledAt_concat_length, ofLog, List.length_append, List.length_singleton]
  have hcompare : (ofLog (log ++ [entry])).compare = ((ofLog log).stored entry).compare := by
    rcases entry with - | ⟨address, value⟩
    · rw [ofLog, WriteLog.lastValue_concat_none]
      rfl
    · rw [ofLog, WriteLog.lastValue_concat_some]
      simp only [stored, ofLog]
      split <;> rfl
  calc ofLog (log ++ [entry])
      = { counter := ((ofLog log).stored entry).counter +
            if ((ofLog log).stored entry).enabled then 1 else 0
          compare := ((ofLog log).stored entry).compare
          enabled := ((ofLog log).stored entry).enabled } := by
        rw [← counter_concat, ← hcompare, ← henabled]
    _ = ((ofLog log).stored entry).retireTick := by
        unfold retireTick
        split
        · rfl
        · rw [BitVec.ofNat_eq_ofNat, BitVec.add_zero]

end Concat

/-- Enable, two other instructions, a COUNTER store while enabled, then disable. -/
example : (ofLog [some (0x20000108, 1), none, none, some (0x20000100, 10),
    some (0x20000108, 0)]).counter = 11 := by
  decide

end Timer

namespace CpuCore

/-! ## One step -/

/-- The store of the instruction at the PC: the address and value, if it is a `SW`. -/
def storeAtPc (cpu : CpuCore) (bus : Bus) : Option (Word × Word) :=
  match bus.fetch32 cpu.pc with
  | .error _ => none
  | .ok w =>
      match Isa.decode w with
      | .ok (.sw rs2 rs1 imm16) =>
          some (Isa.effectiveAddress cpu.arch rs1 imm16, cpu.arch.read rs2)
      | _ => none

/-- A retiring instruction writes memory exactly as a `SW` at the PC says. -/
theorem storeAtPc_of_retire {cpu : CpuCore} {bus b : Bus} {w : Word} {effect : Isa.Effect}
    (h : Isa.step Bus.busModel cpu.arch bus = .retire w effect b) :
    cpu.storeAtPc bus = effect.memWrite := by
  obtain ⟨i, c, hf, hd, hx, -⟩ := Isa.step_eq_retire h
  have hf' : bus.fetch32 cpu.pc = .ok w := hf
  cases i with
  | sw rs2 rs1 imm16 =>
      simp only [Isa.execute] at hx
      cases hst : Bus.busModel.store bus (Isa.effectiveAddress cpu.arch rs1 imm16)
          (cpu.arch.read rs2) <;> rw [hst] at hx <;> cases hx
      simp only [storeAtPc, hf', hd]
  | lw rd rs1 imm16 =>
      simp only [Isa.execute] at hx
      cases hl : Bus.busModel.load bus (Isa.effectiveAddress cpu.arch rs1 imm16) <;>
        rw [hl] at hx <;> cases hx
      simp only [storeAtPc, hf', hd]
  | _ =>
      cases hx
      simp only [storeAtPc, hf', hd]

/-- What a successful write does to the Timer. -/
theorem write32_timer {bus bus' : Bus} {address value : Word}
    (h : bus.write32 address value = (none, bus')) :
    bus'.timer = bus.timer.stored (some (address, value)) := by
  obtain ⟨fault, hw, -⟩ | ⟨b, hw, hm⟩ := Bus.write32_memory bus address value
  · exact absurd (Prod.mk.inj (h.symm.trans hw)).1 nofun
  · obtain rfl : bus' = b := (Prod.mk.inj (h.symm.trans hw)).2
    obtain ⟨hcounter, hcompare, henable⟩ := Isa.Memory.store_timer hm
    calc bus'.timer = ⟨bus'.timer.counter, bus'.timer.compare, bus'.timer.enabled⟩ := rfl
      _ = bus.timer.stored (some (address, value)) := by
        rw [show bus'.timer.counter = _ from hcounter, show bus'.timer.compare = _ from hcompare,
          show bus'.timer.enabled = _ from henable]
        rfl

/-- **A retirement in the Timer**, on whichever path: the instruction's own store, then
one tick. -/
theorem retire_timer {cpu : CpuCore} {bus b : Bus} {w : Word} {effect : Isa.Effect}
    (h : Isa.step Bus.busModel cpu.arch bus = .retire w effect b) :
    b.timer = (bus.timer.stored (cpu.storeAtPc bus)).retireTick := by
  rw [storeAtPc_of_retire h]
  obtain ⟨i, c, -, -, hx, rfl⟩ := Isa.step_eq_retire h
  change c.timer.retireTick = _
  cases hs : effect.memWrite with
  | none => rw [Isa.execute_memWrite_none hx hs]; rfl
  | some store =>
      obtain ⟨address, value⟩ := store
      have hstore := Isa.execute_memWrite_some hx hs
      simp only [Bus.busModel] at hstore
      split at hstore
      · next hw =>
          cases hstore
          rw [write32_timer hw]
      · cases hstore

/-! ## Whole runs -/

/-- Calls of `step` in a row, with the log of what retired. -/
def runSteps : ℕ → CpuCore → Bus → Except Hazard (StoreLog × CpuCore × Bus)
  | 0, cpu, bus => .ok ([], cpu, bus)
  | calls + 1, cpu, bus => do
      let (log, cpu, bus) ← runSteps calls cpu bus
      let (_, cpu', bus') ← cpu.step bus
      return (if cpu'.retiredInstructions = cpu.retiredInstructions then log
        else log ++ [cpu.storeAtPc bus], cpu', bus')

/-- One call more. -/
theorem runSteps_succ {calls : ℕ} {cpu c c' : CpuCore} {bus b b' : Bus} {log : StoreLog}
    {result : StepResult} (hrun : runSteps calls cpu bus = .ok (log, c, b))
    (hstep : c.step b = .ok (result, c', b')) :
    runSteps (calls + 1) cpu bus =
      .ok (if c'.retiredInstructions = c.retiredInstructions then log
        else log ++ [c.storeAtPc b], c', b') := by
  simp only [runSteps, hrun, hstep, bind, Except.bind]
  rfl

/-- A `LW` from `address` that the core is about to execute retires with `value` in its
register. -/
def Loads (cpu : CpuCore) (bus : Bus) (address value : Word) : Prop :=
  ∀ w rd rs1 imm16, cpu.microstate = .fetch → bus.fetch32 cpu.pc = .ok w →
    Isa.decode w = .ok (.lw rd rs1 imm16) → Isa.effectiveAddress cpu.arch rs1 imm16 = address →
      ∃ cpu' bus', cpu.step bus = .ok (.retired, cpu', bus') ∧
        cpu'.retiredInstructions = cpu.retiredInstructions + 1 ∧
        cpu'.arch.read rd = if rd = 0 then 0 else value

/-- A load that the bus answers reaches the register. -/
theorem loads_of_read32 {cpu : CpuCore} {bus : Bus} {address value : Word}
    (h : bus.read32 address = .ok value) : cpu.Loads bus address value := by
  intro w rd rs1 imm16 hm hf hd haddress
  obtain ⟨result, cpu', bus', hstep, hdone⟩ := step_completes cpu bus hm
  have hx : Isa.execute Bus.busModel cpu.arch bus (.lw rd rs1 imm16) =
      .ok ({ nextPc := cpu.arch.pc + 4, regWrite := some (rd, value) }, bus) := by
    simp only [Isa.execute, haddress, Bus.busModel, h]
  have hf' : Bus.busModel.fetch bus cpu.arch.pc = .ok w := hf
  rw [Isa.step_retire hf' hd hx] at hdone
  obtain ⟨hresult, -, -, harch, hcount, -⟩ := hdone
  refine ⟨cpu', bus', (hstep 0).trans (by rw [hresult]; rfl), hcount, ?_⟩
  rw [harch]
  by_cases hrd : rd = 0#5
  · simp [Isa.ArchState.read, hrd]
  · simp [Isa.ArchState.read, Isa.ArchState.write, Isa.Effect.apply, hrd]

/-- The load of COUNTER, … -/
theorem read32_counter (bus : Bus) : bus.read32 0x20000100 = .ok bus.timer.counter := by
  rw [← Bus.read32_memory, Isa.Memory.load, if_neg (by decide),
    show Isa.region 0x20000100 = .timer by decide]
  rfl

/-- … and of STATUS. -/
theorem read32_status (bus : Bus) : bus.read32 0x2000010C =
    .ok (if bus.timer.enabled ∧ bus.timer.counter = bus.timer.compare then 1 else 0) := by
  rw [← Bus.read32_memory, Isa.Memory.load, if_neg (by decide),
    show Isa.region 0x2000010C = .timer by decide]
  simp [Isa.Memory.timerRead, Bus.memory, Isa.offset]

/-- The Timer after the retirements in `log`, and what loads see of it. -/
structure TimerCounts (log : StoreLog) (cpu : CpuCore) (bus : Bus) : Prop where
  retired : log.length = cpu.retiredInstructions
  counter : bus.timer.counter = (Timer.counterOrigin log).2 + BitVec.ofNat 32 (Timer.ticks log)
  compare : bus.timer.compare = (WriteLog.lastValue 0x20000104 log).getD 0
  enabled : bus.timer.enabled = Timer.enabledAt log log.length
  loadCounter : cpu.Loads bus 0x20000100
    ((Timer.counterOrigin log).2 + BitVec.ofNat 32 (Timer.ticks log))
  loadStatus : cpu.Loads bus 0x2000010C
    (if Timer.enabledAt log log.length ∧ bus.timer.counter = bus.timer.compare then 1 else 0)

/-- **After any number of steps from reset the Timer is that of the log.** -/
theorem runSteps_timer (cpu : CpuCore) (bus : Bus) (calls : ℕ) :
    ∃ log cpu' bus', runSteps calls cpu.reset { bus with timer := .fresh } = .ok (log, cpu', bus') ∧
      log.length = cpu'.retiredInstructions ∧ bus'.timer = Timer.ofLog log ∧
      (cpu'.microstate = .fetch ∨ cpu'.microstate = .halted ∨ cpu'.microstate = .fault) := by
  induction calls with
  | zero => exact ⟨[], _, _, rfl, rfl, rfl, Or.inl rfl⟩
  | succ calls ih =>
      obtain ⟨log, c, b, hrun, hlength, htimer, hm⟩ := ih
      have hstay (result : StepResult) (hstep : c.step b = .ok (result, c, b)) :
          runSteps (calls + 1) cpu.reset { bus with timer := .fresh } = .ok (log, c, b) := by
        rw [runSteps_succ hrun hstep, if_pos rfl]
      rcases hm with hm | hm | hm
      · obtain ⟨result, c', b', hstep, hdone⟩ := step_completes c b hm
        have hrun' := runSteps_succ hrun (hstep 0)
        cases hisa : Isa.step Bus.busModel c.arch b with
        | fault info =>
            rw [hisa] at hdone
            obtain ⟨-, hstate, -, -, hcount, rfl⟩ := hdone
            rw [if_pos hcount] at hrun'
            exact ⟨log, c', b', hrun', hlength.trans hcount.symm, htimer, Or.inr (Or.inr hstate)⟩
        | retire w effect b₁ =>
            rw [hisa] at hdone
            obtain ⟨-, hstate, -, -, hcount, rfl⟩ := hdone
            rw [if_neg (by omega)] at hrun'
            refine ⟨_, c', b', hrun', ?_, ?_, ?_⟩
            · rw [List.length_append, List.length_singleton, hlength, hcount]
            · rw [retire_timer hisa, htimer, Timer.ofLog_concat]
            · rw [hstate]
              cases effect.halts
              · exact Or.inl rfl
              · exact Or.inr (Or.inl rfl)
      · exact ⟨log, c, b, hstay .halted (by simp [step, stepWithin, halted, hm]), hlength, htimer,
          Or.inr (Or.inl hm)⟩
      · exact ⟨log, c, b, hstay .faulted (by simp [step, stepWithin, halted, faulted, hm]), hlength,
          htimer, Or.inr (Or.inr hm)⟩

/-- **The Timer counts retirements exactly**, at every instruction boundary of every run
from reset with a fresh Timer. -/
theorem timer_counts (cpu : CpuCore) (bus : Bus) (calls : ℕ) :
    ∃ log cpu' bus', runSteps calls cpu.reset { bus with timer := .fresh } = .ok (log, cpu', bus') ∧
      TimerCounts log cpu' bus' := by
  obtain ⟨log, cpu', bus', hrun, hlength, htimer, -⟩ := runSteps_timer cpu bus calls
  have hcounter : bus'.timer.counter =
      (Timer.counterOrigin log).2 + BitVec.ofNat 32 (Timer.ticks log) := by
    rw [htimer, Timer.ofLog]
  have henabled : bus'.timer.enabled = Timer.enabledAt log log.length := by
    rw [htimer, Timer.ofLog]
  refine ⟨log, cpu', bus', hrun, hlength, hcounter, by rw [htimer, Timer.ofLog], henabled, ?_, ?_⟩
  · rw [← hcounter]
    exact loads_of_read32 (read32_counter bus')
  · rw [← henabled]
    exact loads_of_read32 (read32_status bus')

end CpuCore
end Mini32.Cpp
