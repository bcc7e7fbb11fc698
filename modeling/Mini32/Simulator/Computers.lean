import Mini32.Lib.Interleave
import Mini32.Simulator.Step

/-!
# Two computers in one process

A `Bus` holds references, so what two computers share is a matter of how their buses were
constructed.  `Objects` are the device objects of a process, `BusRefs` the references of
one bus, and a schedule interleaves the constructions and the `step` calls of two
computers.

The four-argument constructor binds the function-local statics of `default_timer` and
`default_gpio`, the same two objects for every bus.  `independent_iff` says what follows:
two computers are independent, for all programs and all interleavings, exactly if their
buses refer to different Timers and to different GPIO blocks.

## Independence

What one computer shows is compared with a process in which it runs alone, with the other
computer's events left out.  If the buses share no object, an event of one computer leaves the
view of the other as it is (`isolated`), and the schedule can be filtered.

## Interference

For the other direction one pair of programs is enough.  The first stores to the Timer and to
the GPIO block, the second loads from both; the first runs to its end, then the second.  The
second loads what was stored wherever the device is shared, and what a fresh one holds where
it is not (`bus_stored`), so its registers tell the two apart (`shared_interferes`).
-/

namespace Mini32.Cpp

/-! ## References -/

/-- A Timer or GPIO object: the static of `default_timer` or `default_gpio`, or one that
the caller made. -/
inductive DeviceRef
  | default
  | object (id : ℕ)
  deriving DecidableEq, Repr

/-- The references a `Bus` holds. -/
structure BusRefs where
  rom : ℕ
  ram : ℕ
  uart : ℕ
  debug : ℕ
  timer : DeviceRef
  gpio : DeviceRef
  deriving DecidableEq, Repr

/-- A call of one of the public constructors of `Bus`, with the objects it is given. -/
inductive BusConstructor
  | four (rom ram uart debug : ℕ)
  | six (rom ram uart debug timer gpio : ℕ)
  deriving DecidableEq, Repr

/-- The first constructor delegates to the second with the statics. -/
def BusConstructor.refs : BusConstructor → BusRefs
  | four rom ram uart debug => ⟨rom, ram, uart, debug, .default, .default⟩
  | six rom ram uart debug timer gpio => ⟨rom, ram, uart, debug, .object timer, .object gpio⟩

/-- The device objects of a process. -/
structure Objects where
  rom : ℕ → Rom
  ram : ℕ → Ram
  uart : ℕ → Uart
  debug : ℕ → DebugDevice
  timer : DeviceRef → Timer
  gpio : DeviceRef → Gpio

namespace Objects

/-- Freshly constructed objects, with the images loaded and the pins set.  Nobody can name
the static GPIO block to set its pins. -/
def fresh (images : ℕ → Rom) (pins : ℕ → Word) : Objects where
  rom := images
  ram _ := .fresh
  uart _ := .fresh
  debug _ := .fresh
  timer _ := .fresh
  gpio
    | .default => .fresh 0
    | .object id => .fresh (pins id)

/-- What a bus with these references sees. -/
def bus (o : Objects) (r : BusRefs) : Bus where
  rom := o.rom r.rom
  ram := o.ram r.ram
  uart := o.uart r.uart
  debug := o.debug r.debug
  timer := o.timer r.timer
  gpio := o.gpio r.gpio

/-- What a call through such a bus leaves; its `rom_` is a reference to `const`. -/
def update (o : Objects) (r : BusRefs) (b : Bus) : Objects where
  rom := o.rom
  ram := Function.update o.ram r.ram b.ram
  uart := Function.update o.uart r.uart b.uart
  debug := Function.update o.debug r.debug b.debug
  timer := Function.update o.timer r.timer b.timer
  gpio := Function.update o.gpio r.gpio b.gpio

/-- The updated objects show the bus they were updated from, except for the ROM. -/
theorem bus_update (o : Objects) (r : BusRefs) (b : Bus) :
    (o.update r b).bus r = { b with rom := (o.bus r).rom } := by
  simp only [bus, update, Function.update_self]

/-- References to different objects. -/
structure Disjoint (r r' : BusRefs) : Prop where
  ram : r.ram ≠ r'.ram
  uart : r.uart ≠ r'.uart
  debug : r.debug ≠ r'.debug
  timer : r.timer ≠ r'.timer
  gpio : r.gpio ≠ r'.gpio

/-- Disjointness is symmetric. -/
theorem Disjoint.symm {r r' : BusRefs} (h : Disjoint r r') : Disjoint r' r :=
  ⟨h.ram.symm, h.uart.symm, h.debug.symm, h.timer.symm, h.gpio.symm⟩

/-- An update through one bus is not seen through a disjoint one. -/
theorem bus_update_of_disjoint {r r' : BusRefs} (h : Disjoint r r') (o : Objects) (b : Bus) :
    (o.update r b).bus r' = o.bus r' := by
  simp only [bus, update, Function.update_of_ne h.ram.symm, Function.update_of_ne h.uart.symm,
    Function.update_of_ne h.debug.symm, Function.update_of_ne h.timer.symm,
    Function.update_of_ne h.gpio.symm]

end Objects

/-! ## Two computers -/

/-- The two computers. -/
inductive Side
  | first | second
  deriving DecidableEq, Repr

/-- What the driver of two computers does next. -/
inductive Event
  /-- Construct the bus and the core. -/
  | construct (side : Side)
  /-- Call `CpuCore::step`. -/
  | step (side : Side)
  deriving DecidableEq, Repr

/-- Whose event it is. -/
def Event.side : Event → Side
  | construct side => side
  | step side => side

/-- What a call of `step` shows: its result, the core and the devices. -/
abbrev Observation := Except Hazard (StepResult × CpuCore × Bus)

/-- A process with two computers: the objects, the cores constructed so far, and what the
calls of each have shown. -/
structure Process where
  objects : Objects
  core : Side → Option CpuCore
  log : Side → List Observation

namespace Process

variable (c : Side → BusConstructor)

/-- No computer constructed yet. -/
def start (images : ℕ → Rom) (pins : ℕ → Word) : Process where
  objects := .fresh images pins
  core _ := none
  log _ := []

/-- The bus of one computer over the present objects. -/
def bus (p : Process) (side : Side) : Bus := p.objects.bus (c side).refs

/-- One event. A `step` of a computer that is not constructed yet does nothing. -/
def next : Event → Process → Process
  | .construct side, p => { p with core := Function.update p.core side (some .construct) }
  | .step side, p =>
      match p.core side with
      | none => p
      | some cpu =>
          let observation := cpu.step (p.bus c side)
          let log := Function.update p.log side (p.log side ++ [observation])
          match observation with
          | .error _ => { p with log }
          | .ok (_, cpu', bus') =>
              { objects := p.objects.update (c side).refs bus'
                core := Function.update p.core side (some cpu')
                log }

/-- All that concerns one computer. -/
def view (side : Side) (p : Process) : Option CpuCore × List Observation × Bus :=
  (p.core side, p.log side, p.bus c side)

/-- Different objects, but for the Timer and the GPIO block. -/
structure Distinct : Prop where
  rom : (c .first).refs.rom ≠ (c .second).refs.rom
  ram : (c .first).refs.ram ≠ (c .second).refs.ram
  uart : (c .first).refs.uart ≠ (c .second).refs.uart
  debug : (c .first).refs.debug ≠ (c .second).refs.debug

/-- **Independence** in one schedule: what the steps of each computer show, and the state
they leave, is what they show and leave when the computer runs alone. -/
def Independent (images : ℕ → Rom) (pins : ℕ → Word) (schedule : List Event) : Prop :=
  ∀ side, view c side (Interleave.run (next c) schedule (start images pins)) =
    view c side (Interleave.run (next c) (schedule.filter (·.side = side)) (start images pins))

variable {c}

/-- A construction only sets the core. -/
theorem next_construct (p : Process) (side : Side) :
    next c (.construct side) p =
      { p with core := Function.update p.core side (some .construct) } := rfl

/-- Without a core there is nothing to step. -/
theorem next_step_none {p : Process} {side : Side} (h : p.core side = none) :
    next c (.step side) p = p := by
  simp only [next, h]

/-- A `step` on the view of its own computer. -/
theorem view_step {p : Process} {side : Side} {cpu : CpuCore} (h : p.core side = some cpu) :
    view c side (next c (.step side) p) =
      match cpu.step (p.bus c side) with
      | .error hazard => (some cpu, p.log side ++ [.error hazard], p.bus c side)
      | .ok (result, cpu', bus') =>
          (some cpu', p.log side ++ [.ok (result, cpu', bus')],
            { bus' with rom := (p.bus c side).rom }) := by
  simp only [next, h]
  cases hstep : cpu.step (p.bus c side) with
  | error hazard => simp only [view, h, Function.update_self]; rfl
  | ok r =>
      simp only [view, Function.update_self, bus, Objects.bus_update]

/-- The steps of the computers reach only the objects they refer to. -/
theorem isolated (h : ∀ i j, i ≠ j → Objects.Disjoint (c i).refs (c j).refs) :
    Interleave.Isolated (next c) Event.side (view c) where
  own e p p' hview := by
    obtain ⟨hcore, hlog, hbus⟩ : p.core e.side = p'.core e.side ∧ p.log e.side = p'.log e.side ∧
        p.bus c e.side = p'.bus c e.side := by
      simpa only [view, Prod.mk.injEq] using hview
    cases e with
    | construct side =>
        simp only [Event.side] at hcore hlog hbus
        simp only [Event.side, next_construct, view, Function.update_self, hlog]
        exact congrArg _ (congrArg _ hbus)
    | step side =>
        simp only [Event.side] at hcore hlog hbus hview ⊢
        cases hp : p.core side with
        | none => rw [next_step_none hp, next_step_none (hcore.symm.trans hp), hview]
        | some cpu => rw [view_step hp, view_step (hcore.symm.trans hp), hlog, hbus]
  other i e p hne := by
    cases e with
    | construct side =>
        have hne' : i ≠ side := Ne.symm hne
        simp only [next_construct, view, Function.update_of_ne hne']
        rfl
    | step side =>
        have hne' : i ≠ side := Ne.symm hne
        cases hp : p.core side with
        | none => rw [next_step_none hp]
        | some cpu =>
            simp only [next, hp]
            cases cpu.step (p.bus c side) with
            | error hazard =>
                simp only [view, Function.update_of_ne hne']
                rfl
            | ok r =>
                simp only [view, Function.update_of_ne hne', bus,
                  Objects.bus_update_of_disjoint (h side i hne)]

/-! ## Calls of one computer -/

/-- Calls of `step` in a row by a computer that keeps its ROM. -/
def steps : ℕ → CpuCore → Bus → Option (CpuCore × Bus)
  | 0, cpu, b => some (cpu, b)
  | n + 1, cpu, b =>
      match cpu.step b with
      | .error _ => none
      | .ok (_, cpu', b') => steps n cpu' { b' with rom := b.rom }

/-- Construct a computer and call `step` on it `n` times. -/
def program (side : Side) (n : ℕ) : List Event :=
  .construct side :: List.replicate n (.step side)

/-- Calls of `step` of one computer, in a row. -/
theorem run_replicate {n : ℕ} {p : Process} {side : Side} {cpu cpu' : CpuCore} {b' : Bus}
    (hcore : p.core side = some cpu) (h : steps n cpu (p.bus c side) = some (cpu', b')) :
    (Interleave.run (next c) (List.replicate n (.step side)) p).core side = some cpu' ∧
      (Interleave.run (next c) (List.replicate n (.step side)) p).bus c side = b' := by
  induction n generalizing p cpu with
  | zero =>
      obtain ⟨rfl, rfl⟩ := Prod.mk.inj (Option.some.inj h)
      exact ⟨hcore, rfl⟩
  | succ n ih =>
      have hview := view_step (c := c) hcore
      rw [steps] at h
      cases hstep : cpu.step (p.bus c side) with
      | error hazard =>
          rw [hstep] at h
          nomatch h
      | ok r =>
          obtain ⟨result, cpu₁, b₁⟩ := r
          rw [hstep] at h hview
          simp only [view, Prod.mk.injEq] at hview
          exact ih hview.1 (hview.2.2 ▸ h)

/-- A program does in a process what it does on its bus. -/
theorem run_program {n : ℕ} {p : Process} {side : Side} {cpu : CpuCore} {b : Bus}
    (h : steps n .construct (p.bus c side) = some (cpu, b)) :
    (Interleave.run (next c) (program side n) p).core side = some cpu ∧
      (Interleave.run (next c) (program side n) p).bus c side = b :=
  run_replicate (p := next c (.construct side) p)
    (by simp only [next_construct, Function.update_self]) h

/-- What is left alone when a bus with these references is used. -/
structure Spares (r : BusRefs) (o o' : Objects) : Prop where
  rom : o'.rom = o.rom
  ram : ∀ k ≠ r.ram, o'.ram k = o.ram k
  uart : ∀ k ≠ r.uart, o'.uart k = o.uart k
  debug : ∀ k ≠ r.debug, o'.debug k = o.debug k
  timer : ∀ k ≠ r.timer, o'.timer k = o.timer k
  gpio : ∀ k ≠ r.gpio, o'.gpio k = o.gpio k

/-- What is not touched is spared. -/
theorem Spares.refl (r : BusRefs) (o : Objects) : Spares r o o :=
  ⟨rfl, fun _ _ => rfl, fun _ _ => rfl, fun _ _ => rfl, fun _ _ => rfl, fun _ _ => rfl⟩

/-- Sparing composes. -/
theorem Spares.trans {r : BusRefs} {o o' o'' : Objects} (h : Spares r o o') (h' : Spares r o' o'') :
    Spares r o o'' where
  rom := h'.rom.trans h.rom
  ram k hk := (h'.ram k hk).trans (h.ram k hk)
  uart k hk := (h'.uart k hk).trans (h.uart k hk)
  debug k hk := (h'.debug k hk).trans (h.debug k hk)
  timer k hk := (h'.timer k hk).trans (h.timer k hk)
  gpio k hk := (h'.gpio k hk).trans (h.gpio k hk)

/-- An update through a bus spares what it does not refer to. -/
theorem spares_update (r : BusRefs) (o : Objects) (b : Bus) : Spares r o (o.update r b) where
  rom := rfl
  ram _ hk := Function.update_of_ne hk ..
  uart _ hk := Function.update_of_ne hk ..
  debug _ hk := Function.update_of_ne hk ..
  timer _ hk := Function.update_of_ne hk ..
  gpio _ hk := Function.update_of_ne hk ..

/-- One event spares what the bus of its computer does not refer to. -/
theorem spares_next (e : Event) (p : Process) :
    Spares (c e.side).refs p.objects (next c e p).objects := by
  cases e with
  | construct side => exact .refl _ _
  | step side =>
      cases hcore : p.core side with
      | none =>
          rw [next_step_none hcore]
          exact .refl _ _
      | some cpu =>
          simp only [next, hcore]
          cases cpu.step (p.bus c side) with
          | error hazard => exact .refl _ _
          | ok r => exact spares_update _ _ _

/-- The events of one computer spare what its bus does not refer to. -/
theorem spares_run {side : Side} {schedule : List Event} (h : ∀ e ∈ schedule, e.side = side)
    (p : Process) :
    Spares (c side).refs p.objects (Interleave.run (next c) schedule p).objects := by
  induction schedule generalizing p with
  | nil => exact .refl _ _
  | cons e schedule ih =>
      obtain ⟨he, hrest⟩ := List.forall_mem_cons.mp h
      exact (he ▸ spares_next e p).trans (ih hrest (next c e p))

/-! ## Programs that use the shared devices -/

/-- `LUI r1, 0x2000`, `SW r1, 0x100(r1)`, `SW r1, 0x204(r1)`. -/
def storeRom : Rom := ⟨fun i =>
  [0x00, 0x20, 0x20, 0x34, 0x00, 0x01, 0x21, 0x3C, 0x04, 0x02, 0x21, 0x3C].getD i 0⟩

/-- `LUI r1, 0x2000`, `LW r2, 0x100(r1)`, `LW r3, 0x204(r1)`. -/
def loadRom : Rom := ⟨fun i =>
  [0x00, 0x20, 0x20, 0x34, 0x00, 0x01, 0x41, 0x38, 0x04, 0x02, 0x61, 0x38].getD i 0⟩

/-- The first computer stores to the Timer and the GPIO block, the second loads from them. -/
def storeAndLoad (c : Side → BusConstructor) : ℕ → Rom :=
  fun id => if id = (c .first).refs.rom then storeRom else loadRom

/-- The first computer runs to its end before the second is constructed. -/
def loadSchedule : List Event := program .first 3 ++ program .second 3

/-- The Timer after the stores of the first program. -/
def storedTimer : Timer := { Timer.fresh with counter := 0x20000000 }
/-- The GPIO block after them. -/
def storedGpio : Gpio := { Gpio.fresh 0 with output := 0x20000000 }

/-- The first program leaves its word in both devices. -/
theorem storeRom_steps : ∃ cpu b, steps 3 .construct (.fresh storeRom 0) = some (cpu, b) ∧
    b.timer = storedTimer ∧ b.gpio = storedGpio := ⟨_, _, rfl, rfl, rfl⟩

/-- The devices that the second program finds, stored to or fresh. -/
def loadBus (timer gpio : Bool) : Bus :=
  { Bus.fresh loadRom 0 with
    timer := if timer then storedTimer else .fresh
    gpio := if gpio then storedGpio else .fresh 0 }

/-- The second program loads what it finds. -/
theorem loadRom_steps (timer gpio : Bool) : ∃ cpu b,
    steps 3 .construct (loadBus timer gpio) = some (cpu, b) ∧
      cpu.registers.registers 2 = (if timer then 0x20000000 else 0) ∧
      cpu.registers.registers 3 = (if gpio then 0x20000000 else 0) := by
  cases timer <;> cases gpio <;> exact ⟨_, _, rfl, rfl, rfl⟩

/-- The buses on which the two programs start. -/
theorem bus_start (h : Distinct c) :
    (start (storeAndLoad c) fun _ => 0).bus c .first = .fresh storeRom 0 ∧
      (start (storeAndLoad c) fun _ => 0).bus c .second = loadBus false false := by
  have hpins (r : DeviceRef) : (Objects.fresh (storeAndLoad c) fun _ => 0).gpio r = .fresh 0 := by
    cases r <;> rfl
  constructor
  · simp only [bus, start, Objects.bus, hpins]
    simp [Objects.fresh, Bus.fresh, storeAndLoad]
  · simp only [bus, start, Objects.bus, hpins]
    simp [Objects.fresh, loadBus, Bus.fresh, storeAndLoad, h.rom.symm]

/-- What the second computer's program finds when the first one has run. -/
theorem bus_stored (h : Distinct c) :
    (Interleave.run (next c) (program .first 3) (start (storeAndLoad c) fun _ => 0)).bus c .second =
      loadBus (decide ((c .first).refs.timer = (c .second).refs.timer))
        (decide ((c .first).refs.gpio = (c .second).refs.gpio)) := by
  obtain ⟨hfirst, hsecond⟩ := bus_start h
  obtain ⟨cpu, b, hsteps, htimer, hgpio⟩ := storeRom_steps
  have hbus := (run_program (hfirst.symm ▸ hsteps)).2
  have hown : ∀ e ∈ program .first 3, e.side = .first := by decide
  have hspares := spares_run (c := c) hown (start (storeAndLoad c) fun _ => 0)
  generalize Interleave.run (next c) (program .first 3) (start (storeAndLoad c) fun _ => 0) = p
    at hbus hspares
  have htimer' : p.objects.timer (c .second).refs.timer =
      if decide ((c .first).refs.timer = (c .second).refs.timer) then storedTimer else .fresh := by
    by_cases hshared : (c .first).refs.timer = (c .second).refs.timer
    · rw [decide_eq_true hshared, if_pos rfl, ← hshared, ← htimer, ← hbus]
      rfl
    · rw [decide_eq_false hshared, if_neg Bool.false_ne_true]
      exact hspares.timer _ (Ne.symm hshared)
  have hgpio' : p.objects.gpio (c .second).refs.gpio =
      if decide ((c .first).refs.gpio = (c .second).refs.gpio) then storedGpio else .fresh 0 := by
    by_cases hshared : (c .first).refs.gpio = (c .second).refs.gpio
    · rw [decide_eq_true hshared, if_pos rfl, ← hshared, ← hgpio, ← hbus]
      rfl
    · rw [decide_eq_false hshared, if_neg Bool.false_ne_true]
      exact (hspares.gpio _ (Ne.symm hshared)).trans (congrArg Bus.gpio hsecond)
  -- the other four objects are the second computer's own
  have hrest : p.bus c .second = { (start (storeAndLoad c) fun _ => 0).bus c .second with
      timer := p.objects.timer (c .second).refs.timer
      gpio := p.objects.gpio (c .second).refs.gpio } := by
    simp only [bus, Objects.bus, hspares.rom, hspares.ram _ h.ram.symm, hspares.uart _ h.uart.symm,
      hspares.debug _ h.debug.symm]
  rw [hrest, hsecond, htimer', hgpio']
  rfl

/-- **A shared Timer or GPIO block is a channel**: the second computer loads what the first
one stored. -/
theorem shared_interferes (hdistinct : Distinct c)
    (h : (c .first).refs.timer = (c .second).refs.timer ∨
      (c .first).refs.gpio = (c .second).refs.gpio) :
    ¬ Independent c (storeAndLoad c) (fun _ => 0) loadSchedule := by
  intro hindependent
  have halone : loadSchedule.filter (·.side = .second) = program .second 3 := by decide
  have hview := hindependent .second
  rw [halone, loadSchedule, Interleave.run_append] at hview
  obtain ⟨cpu, b, hsteps, hcounter, houtput⟩ := loadRom_steps
    (decide ((c .first).refs.timer = (c .second).refs.timer))
    (decide ((c .first).refs.gpio = (c .second).refs.gpio))
  obtain ⟨cpu', b', hsteps', hcounter', houtput'⟩ := loadRom_steps false false
  have hcore := (run_program ((bus_stored hdistinct).symm ▸ hsteps)).1
  have hcore' := (run_program ((bus_start hdistinct).2.symm ▸ hsteps')).1
  obtain rfl : cpu = cpu' := by
    rw [← Option.some.injEq, ← hcore, ← hcore']
    exact (Prod.mk.inj hview).1
  rcases h with h | h
  · rw [decide_eq_true h, hcounter'] at hcounter
    exact absurd hcounter (by decide)
  · rw [decide_eq_true h, houtput'] at houtput
    exact absurd houtput (by decide)

/-- **When two computers are independent**: for all programs, pins and interleavings,
exactly if their buses refer to different Timers and different GPIO blocks. -/
theorem independent_iff (c : Side → BusConstructor) (h : Distinct c) :
    (∀ images pins schedule, Independent c images pins schedule) ↔
      (c .first).refs.timer ≠ (c .second).refs.timer ∧
        (c .first).refs.gpio ≠ (c .second).refs.gpio := by
  constructor
  · intro hindependent
    rw [← not_or]
    intro hshared
    exact shared_interferes h hshared (hindependent _ _ _)
  · rintro ⟨htimer, hgpio⟩ images pins schedule side
    have hfirst : Objects.Disjoint (c .first).refs (c .second).refs :=
      ⟨h.ram, h.uart, h.debug, htimer, hgpio⟩
    refine (isolated fun i j hij => ?_).run_filter side schedule _
    -- with two sides, two different ones are the first and the second
    cases i <;> cases j
    · exact absurd rfl hij
    · exact hfirst
    · exact hfirst.symm
    · exact absurd rfl hij

/-- Two computers, each with a Timer and a GPIO block of its own. -/
def sixArgument : Side → BusConstructor
  | .first => .six 0 0 0 0 0 0
  | .second => .six 1 1 1 1 1 1

/-- With devices of its own the second computer finds nothing of what the first one stored. -/
theorem independent_sixArgument :
    Independent sixArgument (storeAndLoad sixArgument) (fun _ => 0) loadSchedule :=
  (independent_iff sixArgument ⟨by decide, by decide, by decide, by decide⟩).mpr
    ⟨by decide, by decide⟩ _ _ _

/-! ## The four-argument constructor -/

/-- Two computers built with the four-argument constructor, and otherwise of their own devices. -/
def fourArgument : Side → BusConstructor
  | .first => .four 0 0 0 0
  | .second => .four 1 1 1 1

/-- What the second computer's load put in `r2`. -/
def loaded (schedule : List Event) : Option Word :=
  ((Interleave.run (next fourArgument) schedule
    (start (storeAndLoad fourArgument) fun _ => 0)).core .second).map
    (·.registers.registers 2)

/-- The second computer loads the COUNTER that the first one stored; alone it loads zero. -/
theorem not_independent_fourArgument :
    ¬ ∀ (c : Side → BusConstructor), Distinct c →
      ∀ images pins schedule, Independent c images pins schedule := by
  intro h
  have hview := h fourArgument ⟨by decide, by decide, by decide, by decide⟩
    (storeAndLoad fourArgument) (fun _ => 0) loadSchedule .second
  have hloaded : loaded loadSchedule = loaded (loadSchedule.filter (·.side = .second)) :=
    congrArg (Option.map fun cpu : CpuCore => cpu.registers.registers 2) (Prod.mk.inj hview).1
  exact absurd hloaded (by decide)

end Process
end Mini32.Cpp
