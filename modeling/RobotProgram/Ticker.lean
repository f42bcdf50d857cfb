/-!
# Tickers

A ticker makes ticks due at a steady interval while it runs, and hands out how many became due since
it was asked before. One kind of ticker is fired by hand, the other reads a clock.

## Main definitions

* `Ticker`: the ticker that is fired by hand.
* `ClockTicker`: the ticker that is told the time.
-/

namespace RobotProgram

/-! ## Fired by hand -/

/-- The interval in milliseconds while the ticker runs, and the ticks that are due. -/
structure Ticker where
  interval : Option Nat
  pending : Nat
  deriving DecidableEq

namespace Ticker

def idle : Ticker := ⟨none, 0⟩

def isRunning (t : Ticker) : Bool := t.interval.isSome

/-- Starts over with nothing due. -/
def start (_ : Ticker) (interval : Nat) : Ticker := ⟨some interval, 0⟩

/-- Stops and drops what is due. -/
def stop (_ : Ticker) : Ticker := idle

/-- Makes ticks due, unless the ticker stands still. -/
def fire (t : Ticker) (times : Nat) : Ticker :=
  if t.isRunning then { t with pending := t.pending + times } else t

/-- Hands out the ticks that are due. -/
def take (t : Ticker) : Nat × Ticker := (t.pending, { t with pending := 0 })

@[simp] theorem isRunning_start (t : Ticker) (interval : Nat) :
    (t.start interval).isRunning = true := rfl

@[simp] theorem isRunning_stop (t : Ticker) : t.stop.isRunning = false := rfl

@[simp] theorem isRunning_take (t : Ticker) : t.take.2.isRunning = t.isRunning := rfl

@[simp] theorem isRunning_fire (t : Ticker) (times : Nat) :
    (t.fire times).isRunning = t.isRunning := by
  unfold fire
  split <;> rfl

@[simp] theorem pending_fire (t : Ticker) (times : Nat) :
    (t.fire times).pending = if t.isRunning then t.pending + times else t.pending := by
  unfold fire
  split <;> rfl

end Ticker

/-! ## Driven by a clock -/

/-- While the ticker runs, its interval and the time of the last tick, both in one unit of time. -/
structure ClockTicker where
  running : Option (Nat × Nat)
  deriving DecidableEq

namespace ClockTicker

/-- No more ticks than this are handed out at once. -/
def most : Nat := 0xFFFFFFFF

def idle : ClockTicker := ⟨none⟩

def isRunning (t : ClockTicker) : Bool := t.running.isSome

def start (_ : ClockTicker) (interval now : Nat) : ClockTicker := ⟨some (interval, now)⟩

def stop (_ : ClockTicker) : ClockTicker := idle

/-- The time left until the next tick. -/
def untilNext (t : ClockTicker) (now : Nat) : Option Nat :=
  t.running.map fun (interval, last) => interval - (now - last)

/--
Hands out the whole intervals since the last tick. The next tick is counted from the last one due and
not from now, so that the cadence does not drift; with no interval at all one tick is always due.
-/
def take (t : ClockTicker) (now : Nat) : Nat × ClockTicker :=
  match t.running with
  | none => (0, t)
  | some (0, _) => (1, ⟨some (0, now)⟩)
  | some (interval, last) =>
    let ticks := min ((now - last) / interval) most
    (ticks, ⟨some (interval, last + interval * ticks)⟩)

end ClockTicker

end RobotProgram
