/- Module: BleMidi.Packet.PacketParser
   source: ble_midi/src/ble_midi_packet.c (struct ble_midi_parser_t, ble_midi_parse_packet)
   digest: The packet parser with its index arithmetic and every buffer access it makes. -/

import BleMidi.Packet.Bytes

set_option autoImplicit false
set_option relaxedAutoImplicit false

namespace BleMidi.Packet.PacketParser

open BleMidi.Packet.Bytes

/-- One callback invocation. A message carries the `num_bytes` bytes handed to the callback. -/
inductive Event
  | midiMessage (bytes : List UInt8) (timestamp : UInt16)
  | sysexStart (timestamp : UInt16)
  | sysexData (dataByte : UInt8)
  | sysexEnd (timestamp : UInt16)
  deriving DecidableEq, Repr

/-- How the parser ends: with a return value, or at an access outside an array. -/
inductive Halt
  | returned (code : PacketError)
  | outOfBounds
  deriving DecidableEq, Repr

/-- The operations of the parser that C leaves unchecked. -/
inductive Access
  /-- the `uint32_t` subtraction `rx_buf_size - num_bytes` -/
  | sizeSub (rxBufSize numBytes : Nat)
  /-- a read of `rx_buf[index]` -/
  | rxRead (index rxBufSize : Nat)
  /-- a write of `result[offset]`, where `room` bytes of the destination array remain -/
  | store (offset room : Nat)
  /-- the `uint8_t` subtraction `num_message_bytes - 2` -/
  | countSub (numMessageBytes : UInt8)
  deriving DecidableEq, Repr

/-- The access stays inside its array, or the subtraction does not wrap around. -/
def Access.Safe : Access → Prop
  | .sizeSub rxBufSize numBytes => numBytes ≤ rxBufSize
  | .rxRead index rxBufSize => index < rxBufSize
  | .store offset room => offset < room
  | .countSub numMessageBytes => 2 ≤ numMessageBytes

instance : DecidablePred Access.Safe
  | .sizeSub rxBufSize numBytes => inferInstanceAs (Decidable (numBytes ≤ rxBufSize))
  | .rxRead index rxBufSize => inferInstanceAs (Decidable (index < rxBufSize))
  | .store offset room => inferInstanceAs (Decidable (offset < room))
  | .countSub numMessageBytes => inferInstanceAs (Decidable (2 ≤ numMessageBytes))

/-- `struct ble_midi_parser_t` with the local `timestamp_high_bits` of the parse loop, followed
by the trace of accesses and callbacks made so far. -/
structure Parser where
  inSysexMsg : Bool := false
  runningStatusByte : UInt8 := 0
  prevTimestampByte : UInt8 := 0
  readPos : Nat := 0
  timestampHighBits : UInt8 := 0
  accesses : List Access := []
  callbacks : List Event := []

/-- Parser code: it may halt, and the parser state survives the halt. -/
abbrev ParserM := ExceptT Halt (StateM Parser)

def ParserM.exec {α : Type} (x : ParserM α) (parser : Parser) : Except Halt α × Parser :=
  (ExceptT.run x).run parser

/-- Subtraction of `uint32_t` values. -/
def subU32 (a b : Nat) : Nat := if b ≤ a then a - b else 2 ^ 32 + a - b

def access (a : Access) : ParserM Unit :=
  modify fun parser => { parser with accesses := parser.accesses ++ [a] }

def callback (event : Event) : ParserM Unit :=
  modify fun parser => { parser with callbacks := parser.callbacks ++ [event] }

/-- The copy loop of `ble_midi_parser_read` with `count` bytes to go, writing to `result[i]`. The C
code goes on behind a read or a store outside the arrays, the model stops there. -/
def copyBytes (rxBuf : List UInt8) (room : Nat) : Nat → Nat → ParserM (List UInt8)
  | 0, _ => pure []
  | count + 1, i => do
      let parser ← get
      access (.rxRead parser.readPos rxBuf.length)
      match rxBuf[parser.readPos]? with
      | none => throw .outOfBounds
      | some byte =>
          access (.store i room)
          if i < room then
            modify fun parser => { parser with readPos := parser.readPos + 1 }
            let bytes ← copyBytes rxBuf room count (i + 1)
            pure (byte :: bytes)
          else throw .outOfBounds

/-- `ble_midi_parser_read`; every caller turns its error into this return value. -/
def parserRead (rxBuf : List UInt8) (room numBytes : Nat) : ParserM (List UInt8) := do
  access (.sizeSub rxBuf.length numBytes)
  let parser ← get
  if parser.readPos ≤ subU32 rxBuf.length numBytes then
    copyBytes rxBuf room numBytes 0
  else throw (.returned .unexpectedEndOfData)

/-- A read of one byte into a local variable. -/
def readByte (rxBuf : List UInt8) : ParserM UInt8 := do
  let bytes ← parserRead rxBuf 1 1
  pure (bytes.headD 0)

/-- The array `message_bytes`: the given first bytes, the bytes read behind them, zeros. -/
def messageBytes (front bytes : List UInt8) : List UInt8 := (front ++ bytes ++ [0, 0, 0]).take 3

/-- The loop of `is_sysex_continuation`. -/
def sysexContinuationLoop (rxBuf : List UInt8) : Nat → ParserM Bool
  | 0 => pure false
  | fuel + 1 => do
      let parser ← get
      if parser.readPos < rxBuf.length then
        let byte1 ← readByte rxBuf
        if isDataByte byte1 then pure true
        else
          let byte2 ← readByte rxBuf
          if isDataByte byte2 then throw (.returned .unexpectedDataByte)
          else if isRealtimeMessage byte2 then sysexContinuationLoop rxBuf fuel
          else pure false
      else pure false

def isSysexContinuation (rxBuf : List UInt8) : ParserM Bool := do
  let _header ← readByte rxBuf
  sysexContinuationLoop rxBuf rxBuf.length

/-- Cases 1 and 2 of the parse loop: a message whose status byte is the running status. -/
def parseRunningStatus (rxBuf : List UInt8) (byte0 : UInt8) : ParserM Unit := do
  let parser ← get
  let statusByte := parser.runningStatusByte
  let numMessageBytes := messageSize statusByte
  access (.countSub numMessageBytes)
  let numAdditionalDataBytes := numMessageBytes - 2
  let bytes ← parserRead rxBuf 1 numAdditionalDataBytes.toNat
  callback (.midiMessage ((messageBytes [statusByte, byte0] bytes).take numMessageBytes.toNat)
    (timestampMs parser.timestampHighBits parser.prevTimestampByte))

/-- What a status byte outside sysex messages does to the running status. -/
def Parser.seeStatus (parser : Parser) (byte1 : UInt8) : Parser :=
  { parser with
    runningStatusByte :=
      if isChannelMessage byte1 then byte1
      else if !isRealtimeMessage byte1 && !isSystemCommonMessage byte1 then 0
      else parser.runningStatusByte }

/-- Case 3 of the parse loop: `byte1` is a status byte behind a timestamp byte. -/
def parseStatus (rxBuf : List UInt8) (byte0 byte1 : UInt8) : ParserM Unit := do
  modify fun parser => parser.seeStatus byte1
  let parser ← get
  if byte1 = 0xf0 then
    modify fun parser => { parser with inSysexMsg := true }
    callback (.sysexStart (timestampMs parser.timestampHighBits byte0))
  else
    let msgSize := messageSize byte1
    if 0 < msgSize then
      let numDataBytes := msgSize - 1
      let bytes ← parserRead rxBuf 2 numDataBytes.toNat
      callback (.midiMessage ((messageBytes [byte1] bytes).take (1 + numDataBytes.toNat))
        (timestampMs parser.timestampHighBits byte0))
    else throw (.returned .invalidStatusByte)

/-- The wrap tracking of timestamp bytes outside sysex messages. -/
def Parser.seeTimestamp (parser : Parser) (byte0 : UInt8) : Parser :=
  { parser with
    timestampHighBits :=
      if byte0 < parser.prevTimestampByte then (parser.timestampHighBits + 1) % 0x40
      else parser.timestampHighBits
    prevTimestampByte := byte0 }

/-- One iteration of the loop of `ble_midi_parse_packet`. -/
def parseStep (rxBuf : List UInt8) : ParserM Unit := do
  let parser ← get
  if parser.inSysexMsg then
    let byte ← readByte rxBuf
    if isDataByte byte then callback (.sysexData byte)
    else
      let status ← readByte rxBuf
      if isRealtimeMessage status then
        callback (.midiMessage [status] (timestampMs parser.timestampHighBits byte))
      else if status = 0xf7 then
        modify fun parser => { parser with inSysexMsg := false }
        callback (.sysexEnd (timestampMs parser.timestampHighBits byte))
      else throw (.returned .invalidStatusByte)
  else
    let byte0 ← readByte rxBuf
    if isDataByte byte0 then parseRunningStatus rxBuf byte0
    else
      modify fun parser => parser.seeTimestamp byte0
      let byte1 ← readByte rxBuf
      if isDataByte byte1 then parseRunningStatus rxBuf byte1
      else parseStatus rxBuf byte0 byte1

/-- The loop itself; an iteration reads at least one byte, so `rx_buf_size` is enough fuel. -/
def parseLoop (rxBuf : List UInt8) : Nat → ParserM Unit
  | 0 => pure ()
  | fuel + 1 => do
      let parser ← get
      if parser.readPos < rxBuf.length then
        parseStep rxBuf
        parseLoop rxBuf fuel
      else pure ()

/-- The body of `ble_midi_parse_packet`. -/
def parsePacketM (rxBuf : List UInt8) : ParserM Unit := do
  let isSysexCont ← isSysexContinuation rxBuf
  modify fun parser => { parser with inSysexMsg := isSysexCont, readPos := 0 }
  let packetHeader ← readByte rxBuf
  modify fun parser => { parser with timestampHighBits := 0x3f &&& packetHeader }
  if isStatusByte packetHeader then parseLoop rxBuf rxBuf.length
  else throw (.returned .invalidHeaderByte)

/-- What a call of `ble_midi_parse_packet` does, with all four callbacks set. -/
structure Parse where
  halt : Halt
  callbacks : List Event
  accesses : List Access
  deriving DecidableEq, Repr

def parsePacket (rxBuf : List UInt8) : Parse :=
  match (parsePacketM rxBuf).exec {} with
  | (.ok (), parser) => ⟨.returned .success, parser.callbacks, parser.accesses⟩
  | (.error halt, parser) => ⟨halt, parser.callbacks, parser.accesses⟩

/-- A note on, the same key again with running status, and a clock byte. -/
example : (parsePacket [0x81, 0xc8, 0x90, 0x40, 0x7f, 0x40, 0x00, 0xc9, 0xf8]).callbacks =
    [.midiMessage [0x90, 0x40, 0x7f] 200, .midiMessage [0x90, 0x40, 0x00] 200,
      .midiMessage [0xf8] 201] := by decide +kernel

end BleMidi.Packet.PacketParser
