/- Module: BleMidi/Queue/TxQueue
   source: ble_midi/src/tx_queue.c, ble_midi/src/tx_queue.h
   digest: The transmit queue: FIFO chunks in, a ring of packets out. -/

import BleMidi.Core.RingWindow
import BleMidi.Core.Runs
import BleMidi.Packet.PacketWriter
import BleMidi.Queue.Fifo

set_option autoImplicit false
set_option relaxedAutoImplicit false

namespace BleMidi.Queue

open BleMidi.Core.RingWindow
open BleMidi.Core.Runs
open BleMidi.Packet.Bytes
open BleMidi.Packet.PacketWriter

/-- `enum tx_queue_error` -/
inductive TxQueueError
  | success
  | fifoFull
  | noTxPackets
  | fifoWriteError
  | invalidData
  deriving DecidableEq, Repr

def txMaxPacketSizeChunkId : UInt8 := 0x0c

def sysexDataChunkId : UInt8 := 0x0d

def sysexDataChunkHeaderSize : Nat := 3

def sysexDataChunkMaxByteCount : Nat := 255

/-- `SYSEX_DATA_CHUNK_MAX_SIZE`, the size of the scratch buffer. -/
def sysexDataChunkMaxSize : Nat := sysexDataChunkHeaderSize + sysexDataChunkMaxByteCount

def sysexStart : UInt8 := 0xf0

def sysexEnd : UInt8 := 0xf7

/-- `struct tx_queue` with the FIFO behind its callbacks and the static scratch buffer. The
packet count is `TX_QUEUE_PACKET_COUNT`; `clock` counts the calls of `ble_timestamp`. -/
structure TxQueue (maxSize packetCount : Nat) where
  fifo : Fifo
  txPackets : Fin packetCount → Writer maxSize
  firstTxPacketIdx : Nat
  txPacketCount : Nat
  hasTxData : Bool
  numRemainingDataBytes : Nat
  currSysexDataChunkSize : Nat
  sysexChunkScratchBuf : List UInt8
  clock : Nat

variable {maxSize packetCount : Nat}

namespace TxQueue

def setHasTxData (queue : TxQueue maxSize packetCount) (hasData : Bool) :
    TxQueue maxSize packetCount :=
  { queue with hasTxData := hasData }

/-- A call of `ble_timestamp`, whose results are `times`. -/
def tick (queue : TxQueue maxSize packetCount) : TxQueue maxSize packetCount :=
  { queue with clock := queue.clock + 1 }

def write3ByteChunkToFifo (queue : TxQueue maxSize packetCount) (bytes : List UInt8) :
    TxQueueError × TxQueue maxSize packetCount :=
  if queue.fifo.getFreeSpace < 3 then (.fifoFull, queue)
  else
    let (writeResult, fifo) := queue.fifo.write bytes
    (if writeResult = 3 then .success else .fifoWriteError, { queue with fifo := fifo })

section Packets

variable [NeZero packetCount]

def lastSlot (queue : TxQueue maxSize packetCount) : Fin packetCount :=
  slot packetCount queue.firstTxPacketIdx (queue.txPacketCount - 1)

/-- `tx_queue_last_tx_packet` -/
def lastTxPacket (queue : TxQueue maxSize packetCount) : Writer maxSize :=
  queue.txPackets queue.lastSlot

def setLastTxPacket (queue : TxQueue maxSize packetCount) (w : Writer maxSize) :
    TxQueue maxSize packetCount :=
  { queue with txPackets := Function.update queue.txPackets queue.lastSlot w }

def firstSlot (queue : TxQueue maxSize packetCount) : Fin packetCount :=
  slot packetCount queue.firstTxPacketIdx 0

/-- `tx_queue_first_tx_packet`, null when there is no data. -/
def firstTxPacket (queue : TxQueue maxSize packetCount) : Option (Writer maxSize) :=
  if queue.hasTxData then some (queue.txPackets queue.firstSlot) else none

/-- `tx_queue_tx_packet_add` -/
def txPacketAdd (queue : TxQueue maxSize packetCount) :
    TxQueueError × TxQueue maxSize packetCount :=
  if packetCount ≤ queue.txPacketCount then (.noTxPackets, queue)
  else
    let queue := { queue with txPacketCount := queue.txPacketCount + 1 }
    (.success, queue.setLastTxPacket (writerReset queue.lastTxPacket))

/-- `tx_queue_on_tx_packet_sent` -/
def onTxPacketSent (queue : TxQueue maxSize packetCount) :
    TxQueueError × TxQueue maxSize packetCount :=
  match queue.firstTxPacket with
  | none => (.noTxPackets, queue)
  | some packetToPop =>
      let queue := { queue with
        txPackets := Function.update queue.txPackets queue.firstSlot (writerReset packetToPop) }
      if queue.txPacketCount ≤ 1 then (.success, queue.setHasTxData false)
      else
        (.success,
          { queue with
            txPacketCount := queue.txPacketCount - 1
            firstTxPacketIdx := (queue.firstTxPacketIdx + 1) % packetCount })

end Packets

/-- One attempt of `add_3_byte_chunk_to_tx_packet` on one packet. -/
def addChunk (bytes : MessageBytes) (timestamp : UInt16) (txPacket : Writer maxSize) :
    PacketError × Writer maxSize :=
  if bytes.byte0 = sysexStart then writerStartSysexMsg txPacket timestamp
  else if bytes.byte0 = sysexEnd then writerEndSysexMsg txPacket timestamp
  else writerAddMsg txPacket bytes timestamp

variable [NeZero packetCount] (times : Nat → UInt16)

/-- The attempts that are left, the last of which adds no packet. -/
def add3ByteChunkAttempts (bytes : MessageBytes) (timestamp : UInt16) :
    Nat → TxQueue maxSize packetCount → PacketError × TxQueue maxSize packetCount
  | 0, queue => (.packetFull, queue)
  | left + 1, queue =>
      match addChunk bytes timestamp queue.lastTxPacket with
      | (.packetFull, w) =>
          if left = 0 then (.packetFull, queue.setLastTxPacket w)
          else
            match (queue.setLastTxPacket w).txPacketAdd with
            | (.noTxPackets, queue) => (.packetFull, queue)
            | (_, queue) => add3ByteChunkAttempts bytes timestamp left queue
      | (code, w) => (code, queue.setLastTxPacket w)

/-- `add_3_byte_chunk_to_tx_packet`: to the current packet, or else to the next one. -/
def add3ByteChunkToTxPacket (queue : TxQueue maxSize packetCount) (bytes : MessageBytes) :
    TxQueueError × TxQueue maxSize packetCount :=
  match add3ByteChunkAttempts bytes (times queue.clock) 2 queue.tick with
  | (.success, queue) => (.success, queue.setHasTxData true)
  | (.packetFull, queue) => (.noTxPackets, queue)
  | (_, queue) => (.invalidData, queue)

/-- The loop of `add_data_bytes_to_tx_packet` with the bytes still to add. Every round but the
last takes a new packet, so `packetCount` rounds are enough. -/
def addDataBytesLoop :
    Nat → TxQueue maxSize packetCount → List UInt8 → Nat →
      Except TxQueueError Nat × TxQueue maxSize packetCount
  | 0, queue, _, numBytesAdded => (.ok numBytesAdded, queue)
  | fuel + 1, queue, bytes, numBytesAdded =>
      if bytes = [] then (.ok numBytesAdded, queue)
      else
        match writerAddSysexData queue.lastTxPacket bytes (times queue.clock) with
        | (.error _, w) => (.error .invalidData, queue.tick.setLastTxPacket w)
        | (.ok addResult, w) =>
            let queue := queue.tick.setLastTxPacket w
            if addResult < bytes.length then
              match queue.txPacketAdd with
              | (.success, queue) =>
                  addDataBytesLoop fuel queue (bytes.drop addResult) (numBytesAdded + addResult)
              | (_, queue) => (.ok (numBytesAdded + addResult), queue)
            else (.ok (numBytesAdded + addResult), queue)

/-- `add_data_bytes_to_tx_packet`: the number of bytes added, or an error. -/
def addDataBytesToTxPacket (queue : TxQueue maxSize packetCount) (bytes : List UInt8) :
    Except TxQueueError Nat × TxQueue maxSize packetCount :=
  match addDataBytesLoop times packetCount queue bytes 0 with
  | (.ok numBytesAdded, queue) =>
      (.ok numBytesAdded, if 0 < numBytesAdded then queue.setHasTxData true else queue)
  | (.error code, queue) => (.error code, queue)

/-- `tx_queue_reset` -/
def reset (queue : TxQueue maxSize packetCount) : TxQueue maxSize packetCount :=
  { queue with
    numRemainingDataBytes := 0
    currSysexDataChunkSize := 0
    firstTxPacketIdx := 0
    txPacketCount := 1
    fifo := queue.fifo.clear
    hasTxData := false
    txPackets := fun i => { writerReset (queue.txPackets i) with txBufMaxSize := 0 } }

/-- `tx_queue_init` -/
def init (queue : TxQueue maxSize packetCount) (runningStatusEnabled noteOffAsNoteOn : Bool) :
    TxQueue maxSize packetCount :=
  reset { queue with
    txPackets := fun i => writerInit (queue.txPackets i) runningStatusEnabled noteOffAsNoteOn }

/-- `tx_queue_fifo_add_tx_packet_size` -/
def fifoAddTxPacketSize (queue : TxQueue maxSize packetCount) (size : UInt16) :
    TxQueueError × TxQueue maxSize packetCount :=
  queue.write3ByteChunkToFifo
    [txMaxPacketSizeChunkId, (size &&& 0xff).toUInt8, ((size >>> 8) &&& 0xff).toUInt8]

/-- `tx_queue_fifo_add_msg` -/
def fifoAddMsg (queue : TxQueue maxSize packetCount) (bytes : MessageBytes) :
    TxQueueError × TxQueue maxSize packetCount :=
  queue.write3ByteChunkToFifo [bytes.byte0, bytes.byte1, bytes.byte2]

/-- `tx_queue_fifo_add_sysex_start` -/
def fifoAddSysexStart (queue : TxQueue maxSize packetCount) :
    TxQueueError × TxQueue maxSize packetCount :=
  queue.write3ByteChunkToFifo [sysexStart, 0, 0]

/-- `tx_queue_fifo_add_sysex_end` -/
def fifoAddSysexEnd (queue : TxQueue maxSize packetCount) :
    TxQueueError × TxQueue maxSize packetCount :=
  queue.write3ByteChunkToFifo [sysexEnd, 0, 0]

/-- `num_bytes_to_send` of `tx_queue_fifo_add_sysex_data` -/
def numBytesToSend (fifoSpaceLeft numBytes : Nat) : Nat :=
  min (min numBytes sysexDataChunkMaxByteCount) (fifoSpaceLeft - sysexDataChunkHeaderSize)

/-- `tx_queue_fifo_add_sysex_data`: the number of data bytes written, or an error. -/
def fifoAddSysexData (queue : TxQueue maxSize packetCount) (bytes : List UInt8) :
    Except TxQueueError Nat × TxQueue maxSize packetCount :=
  let fifoSpaceLeft := queue.fifo.getFreeSpace
  if fifoSpaceLeft ≤ sysexDataChunkHeaderSize then (.error .fifoFull, queue)
  else
    let count := numBytesToSend fifoSpaceLeft bytes.length
    let (headerWriteResult, fifo) := queue.fifo.write
      [sysexDataChunkId, UInt8.ofNat (count &&& 0xff), UInt8.ofNat ((count >>> 8) &&& 0xff)]
    if headerWriteResult = sysexDataChunkHeaderSize then
      let (dataWriteResult, fifo) := fifo.write (bytes.take count)
      (.ok dataWriteResult, { queue with fifo := fifo })
    else (.ok 0, { queue with fifo := fifo })

/-- `msg_bytes` after the FIFO bytes were copied over it. -/
def peekMsgBytes (msgBytes : MessageBytes) (peeked : List UInt8) : MessageBytes where
  byte0 := peeked.getD 0 msgBytes.byte0
  byte1 := peeked.getD 1 msgBytes.byte1
  byte2 := peeked.getD 2 msgBytes.byte2

/-- The 16 bit value `lsb | (msb << 8)`. -/
def word (lsb msb : UInt8) : Nat := lsb.toNat ||| (msb.toNat <<< 8)

/-- The scratch buffer after the peeked bytes were copied to its start. -/
def overwrite (buf peeked : List UInt8) : List UInt8 := peeked ++ buf.drop peeked.length

/-- The bytes of the scratch buffer that still have to be added. -/
def remainingData (queue : TxQueue maxSize packetCount) : List UInt8 :=
  (queue.sysexChunkScratchBuf.drop
    (queue.currSysexDataChunkSize - queue.numRemainingDataBytes)).take queue.numRemainingDataBytes

/-- What one iteration of the loop of `tx_queue_read_from_fifo` does: it returns a code, or goes
on with the queue and `msg_bytes`. -/
abbrev ReadStep (maxSize packetCount : Nat) :=
  Outcome (TxQueue maxSize packetCount × MessageBytes) (TxQueueError × TxQueue maxSize packetCount)

/-- The branch for data bytes that did not fit into the packets before. -/
def readRemaining (queue : TxQueue maxSize packetCount) (msgBytes : MessageBytes) :
    ReadStep maxSize packetCount :=
  match addDataBytesToTxPacket times queue queue.remainingData with
  | (.ok 0, queue) => .ret (.noTxPackets, queue)
  | (.ok addResult, queue) =>
      .next ({ queue with numRemainingDataBytes := queue.numRemainingDataBytes - addResult },
        msgBytes)
  | (.error _, queue) => .next (queue, msgBytes)

/-- `sysex_data_chunk_size`, the number of bytes that `fifo_peek` is asked for. -/
def sysexDataChunkSize (msgBytes : MessageBytes) : Nat :=
  sysexDataChunkHeaderSize + word msgBytes.byte1 msgBytes.byte2

/-- The branch for a sysex data chunk at the head of the FIFO. -/
def readDataChunk (queue : TxQueue maxSize packetCount) (msgBytes : MessageBytes) :
    ReadStep maxSize packetCount :=
  let sysexDataByteCount := word msgBytes.byte1 msgBytes.byte2
  let sysexDataChunkSize := sysexDataChunkSize msgBytes
  let peeked := queue.fifo.peek sysexDataChunkSize
  let queue := { queue with
    sysexChunkScratchBuf := overwrite queue.sysexChunkScratchBuf peeked }
  let numDataBytesToAdd := peeked.length - sysexDataChunkHeaderSize
  match addDataBytesToTxPacket times queue
      ((queue.sysexChunkScratchBuf.drop sysexDataChunkHeaderSize).take numDataBytesToAdd) with
  | (.ok 0, queue) => .ret (.noTxPackets, queue)
  | (.ok addResult, queue) =>
      .next ({ queue with
        fifo := queue.fifo.read sysexDataChunkSize
        numRemainingDataBytes := sysexDataByteCount - addResult
        currSysexDataChunkSize := sysexDataChunkSize }, msgBytes)
  | (.error _, queue) =>
      .next ({ queue with fifo := queue.fifo.read sysexDataChunkSize }, msgBytes)

/-- The branch for a message, a sysex start or a sysex end at the head of the FIFO. -/
def read3ByteChunk (queue : TxQueue maxSize packetCount) (msgBytes : MessageBytes) :
    ReadStep maxSize packetCount :=
  match add3ByteChunkToTxPacket times queue msgBytes with
  | (.success, queue) => .next ({ queue with fifo := queue.fifo.read 3 }, msgBytes)
  | (.invalidData, queue) => .next ({ queue with fifo := queue.fifo.read 3 }, msgBytes)
  | (_, queue) => .ret (.noTxPackets, queue)

/-- The branch for a packet size request at the head of the FIFO. -/
def readPacketSize (queue : TxQueue maxSize packetCount) (msgBytes : MessageBytes) :
    ReadStep maxSize packetCount :=
  let requestedMaxSize := word msgBytes.byte1 msgBytes.byte2
  let maxSize' := UInt16.ofNat (if maxSize < requestedMaxSize then maxSize else requestedMaxSize)
  .next ({ queue with
    txPackets := fun i => { queue.txPackets i with txBufMaxSize := maxSize' }
    fifo := queue.fifo.read 3 }, msgBytes)

/-- The cases of `first_byte` in `tx_queue_read_from_fifo`. -/
def dispatch {α : Type} (firstByte : UInt8) (sysexData threeBytes packetSize other : α) : α :=
  if firstByte = sysexDataChunkId then sysexData
  else if 128 ≤ firstByte then threeBytes
  else if firstByte = txMaxPacketSizeChunkId then packetSize
  else other

/-- One iteration of the loop of `tx_queue_read_from_fifo`. -/
def readStep (queue : TxQueue maxSize packetCount) (msgBytes : MessageBytes) :
    ReadStep maxSize packetCount :=
  if queue.fifo.isEmpty then .ret (.success, queue)
  else if 0 < queue.numRemainingDataBytes then readRemaining times queue msgBytes
  else
    let msgBytes := peekMsgBytes msgBytes (queue.fifo.peek 3)
    dispatch msgBytes.byte0 (readDataChunk times queue msgBytes)
      (read3ByteChunk times queue msgBytes) (readPacketSize queue msgBytes)
      (.next (queue, msgBytes))

/-- `tx_queue_read_from_fifo`. The loop may run forever, so a call has a result for enough fuel or
for none. -/
def readFromFifo (fuel : Nat) (queue : TxQueue maxSize packetCount) :
    Option (TxQueueError × TxQueue maxSize packetCount) :=
  loop (fun (queue, msgBytes) => readStep times queue msgBytes) fuel (queue, ⟨0, 0, 0⟩)

end TxQueue

end BleMidi.Queue
