/- Module: BleMidi/Packet/PacketWriter
   source: ble_midi/src/ble_midi_packet.c (ble_midi_writer_*), ble_midi/src/ble_midi_packet.h
   digest: The packet writer with its buffer, its size fields and its running status. -/

import BleMidi.Packet.Bytes

set_option autoImplicit false
set_option relaxedAutoImplicit false

namespace BleMidi.Packet.PacketWriter

open BleMidi.Packet.Bytes

/-- `struct ble_midi_writer_t`, where `maxSize` is `BLE_MIDI_TX_PACKET_MAX_SIZE`. -/
structure Writer (maxSize : Nat) where
  txBuf : Vector UInt8 maxSize
  txBufMaxSize : UInt16
  txBufSize : UInt16
  prevStatusByte : UInt8
  prevRunningStatusByte : UInt8
  prevTimestamp : UInt16
  inSysexMsg : Bool
  runningStatusEnabled : Bool
  noteOffAsNoteOn : Bool
  deriving DecidableEq

/-- The three zero padded bytes of a message. -/
structure MessageBytes where
  byte0 : UInt8
  byte1 : UInt8
  byte2 : UInt8
  deriving DecidableEq, Repr

variable {maxSize : Nat}

/-- The bytes of the packet written so far. -/
def Writer.payload (w : Writer maxSize) : List UInt8 := w.txBuf.toList.take w.txBufSize.toNat

/-- `tx_buf[tx_buf_size++] = byte`. A write behind the array is counted only: what it overwrites is
not modelled, and nothing is said of a writer behind it. -/
def Writer.put (w : Writer maxSize) (byte : UInt8) : Writer maxSize :=
  { w with
    txBuf := w.txBuf.setIfInBounds w.txBufSize.toNat byte
    txBufSize := w.txBufSize + 1 }

def Writer.putAll (w : Writer maxSize) (bytes : List UInt8) : Writer maxSize :=
  bytes.foldl Writer.put w

/-- The `int` value of `tx_buf_max_size - tx_buf_size`. -/
def Writer.room (w : Writer maxSize) : Int := w.txBufMaxSize.toNat - w.txBufSize.toNat

/-- The packet header byte, due when the packet is empty. -/
def Writer.header (w : Writer maxSize) (timestamp : UInt16) : List UInt8 :=
  if w.txBufSize = 0 then [headerByte timestamp] else []

def writerInit (w : Writer maxSize) (runningStatusEnabled noteOffAsNoteOn : Bool) :
    Writer maxSize :=
  { w with
    txBufMaxSize := UInt16.ofNat maxSize
    txBufSize := 0
    prevRunningStatusByte := 0
    prevStatusByte := 0
    prevTimestamp := 0
    inSysexMsg := false
    noteOffAsNoteOn := noteOffAsNoteOn
    runningStatusEnabled := runningStatusEnabled }

/-- The flag of an open sysex message stays as it is. -/
def writerReset (w : Writer maxSize) : Writer maxSize :=
  { w with txBufSize := 0, prevTimestamp := 0, prevRunningStatusByte := 0, prevStatusByte := 0 }

/-- The status byte, the second data byte and the running status that a message is sent with. -/
structure Choice where
  statusByte : UInt8
  dataByte1 : UInt8
  runningStatusByte : UInt8
  deriving DecidableEq

/-- The part of `ble_midi_writer_add_msg` under "Use running status?". -/
def Writer.choose (w : Writer maxSize) (statusByte dataByte1 : UInt8) : Choice :=
  if !w.runningStatusEnabled then ⟨statusByte, dataByte1, 0⟩
  else if isChannelMessage statusByte then
    if statusByte >>> 4 = 0x8 && w.noteOffAsNoteOn then
      ⟨0x90 ||| (statusByte &&& 0xf), 0, 0x90 ||| (statusByte &&& 0xf)⟩
    else ⟨statusByte, dataByte1, statusByte⟩
  else if isRealtimeMessage statusByte || isSystemCommonMessage statusByte then
    ⟨statusByte, dataByte1, w.prevRunningStatusByte⟩
  else ⟨statusByte, dataByte1, 0⟩

def Writer.isRunningStatus (w : Writer maxSize) (statusByte : UInt8) : Bool :=
  statusByte == w.prevRunningStatusByte

def Writer.skipMsgTimestamp (w : Writer maxSize) (statusByte : UInt8) (timestamp : UInt16) :
    Bool :=
  w.isRunningStatus statusByte && !(timestamp != w.prevTimestamp) &&
    isChannelMessage statusByte &&
    !(isSystemCommonMessage w.prevStatusByte || isRealtimeMessage w.prevStatusByte)

def Writer.skipStatusByte (w : Writer maxSize) (statusByte : UInt8) : Bool :=
  w.isRunningStatus statusByte && isChannelMessage statusByte

/-- The array `bytes_to_append` of `ble_midi_writer_add_msg`. -/
def Writer.bytesToAppend (w : Writer maxSize) (statusByte : UInt8) (dataBytes : List UInt8)
    (timestamp : UInt16) : List UInt8 :=
  w.header timestamp ++
    ((if w.skipMsgTimestamp statusByte timestamp then [] else [timestampByte timestamp]) ++
      ((if w.skipStatusByte statusByte then [] else [statusByte]) ++ dataBytes))

def writerAddMsg (w : Writer maxSize) (messageBytes : MessageBytes) (timestamp : UInt16) :
    PacketError × Writer maxSize :=
  if w.inSysexMsg then
    if isRealtimeMessage messageBytes.byte0 then
      if 2 ≤ w.room then
        (.success, w.putAll [timestampByte timestamp, messageBytes.byte0])
      else (.packetFull, w)
    else (.invalidStatusByte, w)
  else
    let numMessageBytes := messageSize messageBytes.byte0
    if numMessageBytes = 0 then (.invalidStatusByte, w)
    else if !isDataByte messageBytes.byte1 || !isDataByte messageBytes.byte2 then
      (.invalidDataByte, w)
    else
      let choice := w.choose messageBytes.byte0 messageBytes.byte2
      let numDataBytes := (numMessageBytes - 1).toNat
      let bytesToAppend := w.bytesToAppend choice.statusByte
        ([messageBytes.byte1, choice.dataByte1].take numDataBytes) timestamp
      if w.txBufSize.toNat + bytesToAppend.length ≤ w.txBufMaxSize.toNat then
        (.success,
          { w.putAll bytesToAppend with
            prevStatusByte := choice.statusByte
            prevRunningStatusByte := choice.runningStatusByte
            prevTimestamp := timestamp })
      else (.packetFull, w)

/-- Conversion of a `uint32_t` value to `int`. -/
def int32 (n : Nat) : Int := (BitVec.ofNat 32 n).toInt

/-- The bytes of a whole sysex message, with timestamps in front of its first and last byte. -/
def sysexMsgBytes (bytes : List UInt8) (timestamp : UInt16) : List UInt8 :=
  bytes.zipIdx.flatMap fun (byte, i) =>
    if i = 0 ∨ i = bytes.length - 1 then [timestampByte timestamp, byte] else [byte]

def writerAddSysexMsg (w : Writer maxSize) (bytes : List UInt8) (timestamp : UInt16) :
    PacketError × Writer maxSize :=
  let numBytes := bytes.length
  if numBytes < 2 then (.invalidMessage, w)
  else if bytes[0]? ≠ some 0xf0 ∨ bytes[numBytes - 1]? ≠ some 0xf7 then (.invalidStatusByte, w)
  else if !((bytes.drop 1).take (numBytes - 2)).all isDataByte then (.invalidDataByte, w)
  else
    let addPacketHeader := w.txBufSize = 0
    let numBytesToAppend := int32 (numBytes + 2) + if addPacketHeader then 1 else 0
    if w.room < numBytesToAppend then (.packetFull, w)
    else
      (.success,
        { w.putAll (w.header timestamp ++ sysexMsgBytes bytes timestamp) with
          prevRunningStatusByte := 0 })

def appendStatusByteWithTimestamp (w : Writer maxSize) (timestamp : UInt16) (status : UInt8) :
    PacketError × Writer maxSize :=
  let addPacketHeader := w.txBufSize = 0
  let numBytesToAppend : Int := 2 + if addPacketHeader then 1 else 0
  if w.room < numBytesToAppend then (.packetFull, w)
  else (.success, w.putAll (w.header timestamp ++ [timestampByte timestamp, status]))

def writerStartSysexMsg (w : Writer maxSize) (timestamp : UInt16) :
    PacketError × Writer maxSize :=
  if w.inSysexMsg then (.alreadyInSysexSequence, w)
  else
    match appendStatusByteWithTimestamp w timestamp 0xf0 with
    | (.success, w') => (.success, { w' with inSysexMsg := true, prevRunningStatusByte := 0 })
    | (code, w') => (code, w')

def writerEndSysexMsg (w : Writer maxSize) (timestamp : UInt16) : PacketError × Writer maxSize :=
  if !w.inSysexMsg then (.notInSysexSequence, w)
  else
    match appendStatusByteWithTimestamp w timestamp 0xf7 with
    | (.success, w') => (.success, { w' with inSysexMsg := false })
    | (code, w') => (code, w')

/-- Conversion of an `int` value to `uint32_t`. -/
def uint32 (n : Int) : Nat := (n % 2 ^ 32).toNat

/-- `num_data_bytes_to_add`: the comparison converts the room left to `uint32_t`, so a negative
room counts as a huge one. -/
def Writer.numDataBytesToAdd (w : Writer maxSize) (numDataBytes : Nat) : Nat :=
  if uint32 w.room < numDataBytes then w.room.toNat else numDataBytes

/-- The result is an error code or the number of data bytes added. -/
def writerAddSysexData (w : Writer maxSize) (dataBytes : List UInt8) (timestamp : UInt16) :
    Except PacketError Nat × Writer maxSize :=
  if !w.inSysexMsg && decide (0 < w.txBufSize) then (.error .notInSysexSequence, w)
  else if !dataBytes.all isDataByte then (.error .invalidDataByte, w)
  else if w.txBufSize = 0 ∧ w.txBufMaxSize < 1 then (.error .packetFull, w)
  else
    let w := w.putAll (w.header timestamp)
    let numDataBytesToAdd := w.numDataBytesToAdd dataBytes.length
    (.ok numDataBytesToAdd, w.putAll (dataBytes.take numDataBytesToAdd))

end BleMidi.Packet.PacketWriter
