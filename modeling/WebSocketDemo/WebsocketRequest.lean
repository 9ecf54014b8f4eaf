/-
**The frame parser** (`websocket_request.h`, `websocket_request.cpp`).

`tryConsumeFrame` takes one client frame off the front of the read buffer.  Every byte it reads is
read as `buf[i]` with the bound in scope, so that a read past the end of the buffer cannot be
written down.  The host is little-endian, as on every platform the server is built for.

The three exits of the header are the three length forms; what follows the header is shared by
them and is split off as `consumeBody` (the masking key) and `consumePayload` (the payload).
-/

import WebSocketDemo.Lib.ByteOrder
import Mathlib.Data.Vector.Basic

set_option relaxedAutoImplicit false
set_option autoImplicit false

namespace WebSocketDemo

open ByteOrder

/-- `WS_MAX_PAYLOAD_BYTES`: the limit on the payload of one frame. -/
def wsMaxPayloadBytes : ℕ := 1024 * 1024

/-- `Websocket_ParseResult`. -/
inductive ParseResult
  | needMore
  | ok
  | error
  deriving DecidableEq, Repr

/-- The fields of `Websocket_Request`. -/
structure WebsocketRequest where
  fin : UInt8
  opcode : UInt8
  mask : UInt8
  maskingKey : Vector UInt8 4
  payloadLength : UInt64
  payload : Bytes
  deriving DecidableEq, Repr

namespace WebsocketRequest

/-- The constructor `Websocket_Request()`. -/
def new : WebsocketRequest := ⟨0, 0, 0, #v[0, 0, 0, 0], 0, []⟩

/-- `reset`. -/
def reset (self : WebsocketRequest) : WebsocketRequest :=
  { self with
    fin := 0, opcode := 0, mask := 0, maskingKey := #v[0, 0, 0, 0], payloadLength := 0,
    payload := [] }

/-- `get_msg`. -/
def getMsg (self : WebsocketRequest) : Bytes := self.payload

/-- `get_msg_length`. -/
def getMsgLength (self : WebsocketRequest) : UInt64 := self.payloadLength

/-- `get_msg_opcode_`. -/
def getMsgOpcode (self : WebsocketRequest) : UInt8 := self.opcode

/-- The end of `try_consume_frame`, once the header and the key are read: the size limit, the
payload, and the removal of the frame from the buffer. -/
def consumePayload (self : WebsocketRequest) (buf : Bytes) (headerLen : ℕ) (payloadLen : UInt64) :
    ParseResult × WebsocketRequest × Bytes :=
  if payloadLen.toNat > wsMaxPayloadBytes then
    (.error, self, buf)
  else
    let total := (headerLen + payloadLen.toNat) % 2 ^ 64
    if buf.length < total then
      (.needMore, self, buf)
    else
      let payloadSrc := (buf.drop headerLen).take payloadLen.toNat
      let payload :=
        if self.mask ≠ 0 then
          payloadSrc.mapIdx fun i b => b ^^^ self.maskingKey[i % 4]
        else payloadSrc
      (.ok, { self with payload := payload, payloadLength := payloadLen }, buf.drop total)

/-- The middle of `try_consume_frame`: the masking key, when the mask bit is set. -/
def consumeBody (self : WebsocketRequest) (buf : Bytes) (headerLen : ℕ) (payloadLen : UInt64) :
    ParseResult × WebsocketRequest × Bytes :=
  if self.mask ≠ 0 then
    if _hkey : buf.length < headerLen + 4 then
      (.needMore, self, buf)
    else
      let key := #v[buf[headerLen], buf[headerLen + 1], buf[headerLen + 2], buf[headerLen + 3]]
      consumePayload { self with maskingKey := key } buf (headerLen + 4) payloadLen
  else
    consumePayload { self with maskingKey := #v[0, 0, 0, 0] } buf headerLen payloadLen

/-- `try_consume_frame`. -/
def tryConsumeFrame (self : WebsocketRequest) (buf : Bytes) :
    ParseResult × WebsocketRequest × Bytes :=
  if _h2 : buf.length < 2 then
    (.needMore, self, buf)
  else
    let self :=
      { self with fin := buf[0] >>> 7, opcode := buf[0] &&& 0x0f, mask := buf[1] >>> 7 }
    let len7 := buf[1] &&& 0x7f
    if len7 < 126 then
      consumeBody self buf 2 len7.toUInt64
    else if len7 = 126 then
      if _h4 : buf.length < 4 then
        (.needMore, self, buf)
      else
        let ext := load16 buf[2] buf[3]
        consumeBody self buf 4 (swap16 ext).toUInt64
    else
      if _h10 : buf.length < 10 then
        (.needMore, self, buf)
      else
        let ext : UInt64 :=
          (List.finRange 8).foldl (fun (ext : UInt64) i => (ext <<< 8) ||| buf[2 + i.val].toUInt64)
            0
        if ext >>> 63 ≠ 0 then
          (.error, self, buf)
        else
          consumeBody self buf 10 ext

end WebsocketRequest

end WebSocketDemo
