import Mini32.Lib.WriteLog
import Mini32.Isa.MemoryMap

/-!
# The memory of a log of writes

A `StoreLog` records writes in order.  `ofLog` is the documented memory as a function of
such a log: every RAM word and every device register holds what was last written to
its own address, and the UART has sent the bytes written to its DATA register.
`store_ofLog` says that a store that succeeds is one more entry of the log.

The log says nothing about the bus that it was written through.  That is its purpose: the
state of a bus after any sequence of accesses can be compared with `ofLog` of the writes
among them, in which it does not matter what was read in between or which write faulted.
An entry is `none` for an access that leaves the memory, so that positions in the log are
positions in the sequence.

The counter of the Timer is in the log as any other register.  What retirement ticks do to
it is the subject of `Simulator.TimerRun`; the memory of a log is that of a machine that
is only accessed.
-/

namespace Mini32

/-- A log of writes: the address and value of each, or `none` for an event that writes
nothing. -/
abbrev StoreLog := List (Option (Word × Word))

namespace Isa.Memory

/-- The byte an entry of the log sends through the UART. -/
def transmitted : Option (Word × Word) → Option (BitVec 8)
  | some (address, value) => if address = 0x20000000 then some (value.extractLsb' 0 8) else none
  | none => none

/-- The memory that a log of writes leaves over a ROM and pins. -/
def ofLog (rom : BitVec 14 → Word) (pins : Word) (log : StoreLog) : Memory where
  rom := rom
  ram i := (WriteLog.lastValue (wordAddress 0x10000000 i) log).getD 0
  uartTx := log.filterMap transmitted
  timerCounter := (WriteLog.lastValue 0x20000100 log).getD 0
  timerCompare := (WriteLog.lastValue 0x20000104 log).getD 0
  timerEnable := ((WriteLog.lastValue 0x20000108 log).getD 0).getLsbD 0
  gpioInput := pins
  gpioOutput := (WriteLog.lastValue 0x20000204 log).getD 0
  gpioDirection := (WriteLog.lastValue 0x20000208 log).getD 0
  debugValue := (WriteLog.lastValue 0x20000300 log).getD 0

/-- An entry that is no write leaves the memory. -/
theorem ofLog_concat_none (rom : BitVec 14 → Word) (pins : Word) (log : StoreLog) :
    ofLog rom pins (log ++ [none]) = ofLog rom pins log := by
  simp only [ofLog, WriteLog.lastValue_concat_none, List.filterMap_append]
  simp [transmitted]

/-- One more write to a register: its value is the newest at its own address. -/
theorem lastValue_concat {a a' : Word} {v : Word} {log : StoreLog} :
    (WriteLog.lastValue a (log ++ [some (a', v)])).getD 0 =
      if a' = a then v else (WriteLog.lastValue a log).getD 0 := by
  rw [WriteLog.lastValue_concat_some]
  split <;> rfl

/-- A store that succeeds is one more write of the log. -/
theorem store_ofLog {rom : BitVec 14 → Word} {pins : Word} {log : StoreLog} {a v : Word}
    {m : Memory} (h : (ofLog rom pins log).store a v = .ok m) :
    m = ofLog rom pins (log ++ [some (a, v)]) := by
  obtain ⟨hrom, hpins, hram⟩ := store_memories h
  obtain ⟨huart, hdebug, houtput, hdirection⟩ := store_devices h
  obtain ⟨hcounter, hcompare, henable⟩ := store_timer h
  have hregister (r : Word) {old new : Word} (hnew : new = if a = r then v else old)
      (hold : old = (WriteLog.lastValue r log).getD 0) :
      new = (WriteLog.lastValue r (log ++ [some (a, v)])).getD 0 := by
    rw [hnew, hold, lastValue_concat]
  have hsent : m.uartTx = (log ++ [some (a, v)]).filterMap transmitted := by
    rw [huart, List.filterMap_append, List.filterMap_cons, transmitted, ofLog]
    split <;> simp
  have henable' : m.timerEnable =
      ((WriteLog.lastValue 0x20000108 (log ++ [some (a, v)])).getD 0).getLsbD 0 := by
    rw [henable, lastValue_concat]
    split <;> rfl
  calc m = ⟨m.rom, m.ram, m.uartTx, m.timerCounter, m.timerCompare, m.timerEnable, m.gpioInput,
        m.gpioOutput, m.gpioDirection, m.debugValue⟩ := rfl
    _ = ofLog rom pins (log ++ [some (a, v)]) := by
      rw [hrom, hpins, hsent, henable', hregister _ hcounter rfl, hregister _ hcompare rfl,
        hregister _ houtput rfl, hregister _ hdirection rfl, hregister _ hdebug rfl,
        show m.ram = (ofLog rom pins (log ++ [some (a, v)])).ram from
          funext fun i => hregister _ (hram i) rfl]
      rfl

end Isa.Memory
end Mini32
