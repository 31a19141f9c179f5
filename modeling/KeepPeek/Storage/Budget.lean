import KeepPeek.Storage.Frame
import Mathlib.Algebra.BigOperators.Group.Multiset.Basic
import Mathlib.Logic.Function.Basic

/-! Byte and frame budgets of the pre-record history. A reservation is charged to
the budget of the stream it was admitted through and to the global one, and gives
both back when it is dropped. Budgets are shared by reference, so they live in a
store of their own, where a stream's budget stays after its stream is gone. -/
namespace KeepPeek.Storage

def usizeEnd : Nat := 2 ^ 64

def Usize.wrappingAdd (left right : Nat) : Nat :=
  if left + right < usizeEnd then left + right else left + right - usizeEnd

def Usize.wrappingSub (left right : Nat) : Nat :=
  if right ≤ left then left - right else left + usizeEnd - right

def maxStreamFrames : Nat := 16384

def maxGlobalFrames : Nat := 131072

structure Budget where
  bytes : Nat
  frames : Nat
  maxBytes : Nat
  maxFrames : Nat
  /-- Not in the source: some release took more from a counter than it held. -/
  underflowed : Bool
  deriving DecidableEq, Repr

namespace Budget

def new (maxBytes maxFrames : Nat) : Budget := ⟨0, 0, maxBytes, maxFrames, false⟩

def fits (budget : Budget) (bytes : Nat) : Bool :=
  decide (budget.bytes + bytes < usizeEnd) && decide (budget.bytes + bytes ≤ budget.maxBytes) &&
    decide (budget.frames < budget.maxFrames)

def charge (budget : Budget) (bytes : Nat) : Budget :=
  { budget with
    bytes := Usize.wrappingAdd budget.bytes bytes
    frames := Usize.wrappingAdd budget.frames 1 }

def acquire (budget : Budget) (bytes : Nat) : Option Budget :=
  if !budget.fits bytes then none else some (budget.charge bytes)

def release (budget : Budget) (bytes : Nat) : Budget :=
  { budget with
    bytes := Usize.wrappingSub budget.bytes bytes
    frames := Usize.wrappingSub budget.frames 1
    underflowed := budget.underflowed || decide (budget.bytes < bytes) ||
      decide (budget.frames < 1) }

end Budget

structure Reservation where
  bytes : Nat
  /-- The stream budget charged; the global budget is charged by every reservation. -/
  streamBudget : Nat
  deriving DecidableEq, Repr

structure BufferedFrame where
  frame : RecordingFrame
  reservation : Reservation
  deriving DecidableEq, Repr

/-- All budgets ever created, the stream budgets by number of creation. -/
structure Budgets where
  global : Budget
  stream : Nat → Budget
  next : Nat

namespace Budgets

def new (globalBytes : Nat) : Budgets :=
  ⟨.new globalBytes maxGlobalFrames, fun _ => .new 0 0, 0⟩

def setStream (budgets : Budgets) (streamBudget : Nat) (budget : Budget) : Budgets :=
  { budgets with stream := Function.update budgets.stream streamBudget budget }

def create (budgets : Budgets) (maxBytes maxFrames : Nat) : Budgets × Nat :=
  ({ budgets.setStream budgets.next (.new maxBytes maxFrames) with next := budgets.next + 1 },
    budgets.next)

def charge (budgets : Budgets) (reservation : Reservation) : Budgets :=
  { budgets.setStream reservation.streamBudget
      ((budgets.stream reservation.streamBudget).charge reservation.bytes) with
    global := budgets.global.charge reservation.bytes }

def release (budgets : Budgets) (reservation : Reservation) : Budgets :=
  { budgets.setStream reservation.streamBudget
      ((budgets.stream reservation.streamBudget).release reservation.bytes) with
    global := budgets.global.release reservation.bytes }

def dropFrames (budgets : Budgets) (frames : List BufferedFrame) : Budgets :=
  frames.foldl (fun budgets frame => budgets.release frame.reservation) budgets

@[simp] theorem release_stream_self (bs : Budgets) (reservation : Reservation) :
    (bs.release reservation).stream reservation.streamBudget =
      (bs.stream reservation.streamBudget).release reservation.bytes :=
  Function.update_self _ _ _

theorem release_stream_ne {reservation : Reservation} {id : Nat}
    (h : reservation.streamBudget ≠ id) (bs : Budgets) :
    (bs.release reservation).stream id = bs.stream id :=
  Function.update_of_ne (Ne.symm h) _ _

@[simp] theorem charge_stream_self (bs : Budgets) (reservation : Reservation) :
    (bs.charge reservation).stream reservation.streamBudget =
      (bs.stream reservation.streamBudget).charge reservation.bytes :=
  Function.update_self _ _ _

theorem charge_stream_ne {reservation : Reservation} {id : Nat}
    (h : reservation.streamBudget ≠ id) (bs : Budgets) :
    (bs.charge reservation).stream id = bs.stream id :=
  Function.update_of_ne (Ne.symm h) _ _

@[simp] theorem create_stream_self (bs : Budgets) (maxBytes maxFrames : Nat) :
    (bs.create maxBytes maxFrames).1.stream bs.next = .new maxBytes maxFrames :=
  Function.update_self _ _ _

theorem create_stream_ne {bs : Budgets} {id : Nat} (h : id ≠ bs.next) (maxBytes maxFrames : Nat) :
    (bs.create maxBytes maxFrames).1.stream id = bs.stream id :=
  Function.update_of_ne h _ _

end Budgets

end KeepPeek.Storage
