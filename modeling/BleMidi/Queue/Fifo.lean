/- Module: BleMidi/Queue/Fifo
   source: ble_midi/src/tx_queue.h (struct tx_queue_callbacks), test/tx_queue_test.c (fifo_*)
   digest: The FIFO behind the queue callbacks: a byte queue that never exceeds its capacity. -/

import Mathlib.Data.List.Basic

set_option autoImplicit false
set_option relaxedAutoImplicit false

namespace BleMidi.Queue

/-- A bounded byte queue. -/
structure Fifo where
  capacity : Nat
  bytes : List UInt8
  fits : bytes.length ≤ capacity

namespace Fifo

/-- `fifo_get_free_space` -/
def getFreeSpace (fifo : Fifo) : Nat := fifo.capacity - fifo.bytes.length

/-- `fifo_is_empty` -/
def isEmpty (fifo : Fifo) : Bool := fifo.bytes.isEmpty

/-- `fifo_peek`: the bytes copied to the caller, at most `numBytes`. -/
def peek (fifo : Fifo) (numBytes : Nat) : List UInt8 := fifo.bytes.take numBytes

/-- `fifo_read`, which drops the bytes. -/
def read (fifo : Fifo) (numBytes : Nat) : Fifo :=
  { fifo with
    bytes := fifo.bytes.drop numBytes
    fits := by
      have := fifo.fits
      rw [List.length_drop]
      omega }

/-- `fifo_clear` -/
def clear (fifo : Fifo) : Fifo := { fifo with bytes := [], fits := Nat.zero_le _ }

/-- `fifo_write`: as many bytes as there is room for, and their number. -/
def write (fifo : Fifo) (bytes : List UInt8) : Nat × Fifo :=
  ((bytes.take fifo.getFreeSpace).length,
    { fifo with
      bytes := fifo.bytes ++ bytes.take fifo.getFreeSpace
      fits := by
        have := fifo.fits
        rw [List.length_append, List.length_take, getFreeSpace]
        omega })

theorem write_of_le {f : Fifo} {v : List UInt8} (h : v.length ≤ f.getFreeSpace) :
    (f.write v).1 = v.length ∧ (f.write v).2.bytes = f.bytes ++ v ∧
      (f.write v).2.capacity = f.capacity := by
  have all : v.take f.getFreeSpace = v := List.take_of_length_le h
  refine ⟨?_, ?_, rfl⟩
  · change (v.take f.getFreeSpace).length = v.length
    rw [all]
  · change f.bytes ++ v.take f.getFreeSpace = _
    rw [all]

end Fifo

end BleMidi.Queue
